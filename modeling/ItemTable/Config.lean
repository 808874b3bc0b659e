import ItemTable.Capacity

/-!
# Configuration

The defaults of tables and the settings of connections, as environment variables
give them.  A variable that is not set leaves its default.
-/

namespace ItemTable

/-- The defaults of tables and the settings of connections. -/
structure Config where
  tableName : Option String
  region : String
  /-- Where to connect to, if not to the endpoint of the region. -/
  endpoint : Option String
  consistent : Bool
  capacity : CapacityDetail
deriving DecidableEq

namespace Config

/-- The configuration without any variables. -/
def standard : Config where
  tableName := none
  region := "us-east-1"
  endpoint := none
  consistent := false
  capacity := .none

/-- The texts that switch a flag on. -/
def isYes (text : String) : Bool :=
  ["1", "true", "yes", "TRUE", "YES"].contains text

/-- The configuration that the variables give. -/
def ofVariables (environment : NameMap String) : Config where
  tableName := nonEmpty "DYNACHAIN_TABLE_NAME"
  region := (environment.find? "DEFAULT_REGION").getD standard.region
  endpoint := nonEmpty "DYNAMODB_ENDPOINT_URL"
  consistent := (environment.find? "DYNACHAIN_CONSISTENT_READ").any isYes
  capacity :=
    (environment.find? "DYNACHAIN_RETURN_CONSUMED_CAPACITY" >>= CapacityDetail.ofText?).getD
      standard.capacity
where
  nonEmpty (name : String) : Option String :=
    (environment.find? name).filter fun text => !text.isEmpty

end Config

end ItemTable
