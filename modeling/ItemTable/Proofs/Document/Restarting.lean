import ItemTable.Proofs.Document.Conveying
import ItemTable.Service.Dispatch

/-!
# Documents that are read on from another place

Where a read goes on from is no matter for how its document is compiled.  So a document
makes the same request for each page, but for the key to go on from, and a document that
has been compiled makes the same request as before.
-/

namespace ItemTable

/-! ## Requests for pages -/

/-- A request for a page. -/
inductive PageRequest where
  | query (request : QueryRequest)
  | scan (request : ScanRequest)

namespace PageRequest

/-- The same among requests of all kinds. -/
def request : PageRequest → Request
  | query request => .query request
  | scan request => .scan request

/-- The key to go on from. -/
def start : PageRequest → Item
  | query request => request.start
  | scan request => request.start

/-- The request for the page behind another key. -/
def withStart (request : PageRequest) (key : Item) : PageRequest :=
  match request with
  | query request => query { request with start := key }
  | scan request => scan { request with start := key }

@[simp]
theorem withStart_withStart (request : PageRequest) (first second : Item) :
    (request.withStart first).withStart second = request.withStart second := by
  cases request <;> rfl

@[simp]
theorem withStart_start (request : PageRequest) : request.withStart request.start = request := by
  cases request <;> rfl

end PageRequest

namespace Document

variable {document compiled : Document}

/-- The document with another key to go on from. -/
def withStart (document : Document) (key : Item) : Document :=
  { document with start := key }

theorem compile_withStart (document : Document) (key : Item) :
    (document.withStart key).compile = document.compile.map (·.withStart key) := by
  by_cases compiled : document.isCompiled
  · have same : (document.withStart key).isCompiled := compiled
    rw [compile, compile, if_pos compiled, if_pos same]
    rfl
  · have same : ¬(document.withStart key).isCompiled := compiled
    rw [compile, compile, if_neg compiled, if_neg same]
    dsimp only [withStart]
    cases compileKeyCondition (.seeded document.names document.values) document.keyCondition <;>
      rfl

theorem isText_compileKeyCondition
    {table next : PlaceholderTable}
    {field rendered : Option ExpressionField}
    (done : compileKeyCondition table field = .ok (rendered, next)) :
    isCompiled.isText rendered := by
  match field with
  | none =>
      cases done
      rfl
  | some (.compiled text) =>
      cases done
      rfl
  | some (.raw condition) =>
      rcases bind_eq_ok.mp done with ⟨_, _, ⟨⟩⟩
      rfl

theorem isText_compileCondition
    (table : PlaceholderTable)
    (field : Option ExpressionField) :
    isCompiled.isText (compileCondition table field).1 := by
  match field with
  | none => rfl
  | some (.compiled text) => rfl
  | some (.raw condition) => rfl

theorem text?_compileProjection
    (table : PlaceholderTable)
    (projection : Option ProjectionField) :
    (compileProjection table projection).1.all fun field => field.text?.isSome := by
  match projection with
  | none => rfl
  | some (.compiled text) => rfl
  | some (.raw entries) =>
      change ((table.renderProjection entries).1.map _).all _
      cases (table.renderProjection entries).1 <;> rfl

/-- Compiling leaves nothing to render. -/
theorem isCompiled_of_compile (done : document.compile = .ok compiled) :
    compiled.isCompiled := by
  unfold compile at done
  split at done
  · rename_i already
    cases done
    exact already
  · rcases bind_eq_ok.mp done with ⟨⟨keyCondition, table⟩, rendered, ⟨⟩⟩
    rw [isCompiled, Bool.and_eq_true, Bool.and_eq_true, Bool.and_eq_true]
    refine ⟨⟨⟨?_, ?_⟩, ?_⟩, ?_⟩
    · exact isText_compileKeyCondition rendered
    · exact isText_compileCondition _ _
    · exact isText_compileCondition _ _
    · exact text?_compileProjection _ _

theorem compile_compiled (done : document.compile = .ok compiled) :
    compiled.compile = .ok compiled :=
  if_pos (isCompiled_of_compile done)

/-! ## Documents that make requests -/

/-- A document makes a request for a page. -/
inductive Makes (document : Document) : ReadKind → PageRequest → Prop
  | query
      {compiled : Document}
      {request : QueryRequest}
      (done : document.compile = .ok compiled)
      (made : compiled.toQueryRequest = .ok request) :
      Makes document .query (.query request)
  | scan
      {compiled : Document}
      {request : ScanRequest}
      (done : document.compile = .ok compiled)
      (made : compiled.toScanRequest = .ok request) :
      Makes document .scan (.scan request)

variable {kind : ReadKind} {request : PageRequest}

theorem toScanRequest_withStart
    {request : ScanRequest}
    (made : document.toScanRequest = .ok request)
    (key : Item) :
    (document.withStart key).toScanRequest = .ok { request with start := key } := by
  rcases bind_eq_ok.mp made with ⟨limit, limited, ⟨⟩⟩
  have sameLimit : (document.withStart key).requestLimit = .ok limit := limited
  rw [toScanRequest, sameLimit]
  rfl

theorem toQueryRequest_withStart
    {request : QueryRequest}
    (made : document.toQueryRequest = .ok request)
    (key : Item) :
    (document.withStart key).toQueryRequest = .ok { request with start := key } := by
  rcases bind_eq_ok.mp made with ⟨scan, scanned, ⟨⟩⟩
  rw [toQueryRequest, toScanRequest_withStart scanned key]
  rfl

/-- The requests for other pages differ in the key to go on from only. -/
theorem Makes.withStart (makes : document.Makes kind request) (key : Item) :
    (document.withStart key).Makes kind (request.withStart key) := by
  have restarted {compiled : Document} (done : document.compile = .ok compiled) :
      (document.withStart key).compile = .ok (compiled.withStart key) := by
    rw [compile_withStart, done]
    rfl
  cases makes with
  | query done made => exact .query (restarted done) (toQueryRequest_withStart made key)
  | scan done made => exact .scan (restarted done) (toScanRequest_withStart made key)

end Document

end ItemTable
