import StreamSql.Query.Basic

/-!
# Statements

Everything that can be submitted to the engine.
-/
namespace StreamSql

structure InsertTarget where
  name : String
  columns : Option (List String) := none

structure InsertValue where
  column : String
  value : Literal

/-- A column type an insert expects; checked, and without text. -/
structure InsertSchemaField where
  name : String
  type : ColumnType
  required : Bool := false

structure InsertSchema where
  fields : List InsertSchemaField

inductive Insert where
  | values (target : InsertTarget) (data : List InsertValue) (schema : Option InsertSchema)
  | select (target : InsertTarget) (data : Query) (schema : Option InsertSchema)

namespace Insert

def target : Insert → InsertTarget
  | .values target _ _ => target
  | .select target _ _ => target

def schema : Insert → Option InsertSchema
  | .values _ _ schema => schema
  | .select _ _ schema => schema

end Insert

structure SchemaField where
  name : String
  type : ColumnType
  key : Bool := false

/-- What a new source is built from: declared columns over a topic, or a persistent query. -/
inductive Definition where
  | schema (fields : List SchemaField)
  | query (query : Query)

structure TimestampColumn where
  name : String
  format : Option String := none

structure CreateOptions where
  format : FormatConfig
  topic : Option String := none
  partitions : Option Int64 := none
  replicas : Option Int64 := none
  timestamp : Option TimestampColumn := none
  stateStoreName : Option String := none
  caching : Option Bool := none

structure Create where
  kind : SourceKind
  name : String
  ifNotExists : Bool := false
  definition : Definition
  options : CreateOptions

structure DropOptions where
  ifExists : Bool := false
  deleteTopic : Bool := false

structure Drop where
  kind : SourceKind
  name : String
  options : DropOptions := {}

structure Terminate where
  queryId : String

structure Property where
  action : PropertyAction
  name : String
  value : Option String := none

/-- `LIST STREAMS` and `LIST TABLES` -/
structure ListSources where
  kind : SourceKind
  extended : Bool := false

structure Show where
  listing : Listing
  extended : Bool := false

structure Describe where
  kind : SourceKind
  name : String
  extended : Bool := false

inductive Explained where
  | query (query : Query)
  | create (create : Create)

structure Explain where
  statement : Explained
  analyze : Bool := false

inductive Statement where
  | select (query : Query)
  | insert (insert : Insert)
  | create (create : Create)
  | drop (drop : Drop)
  | terminate (terminate : Terminate)
  | property (property : Property)
  | list (list : ListSources)
  | display (display : Show)
  | describe (describe : Describe)
  | explain (explain : Explain)

/-- The name of a statement in documents and reports. -/
def Statement.name : Statement → String
  | .select (.star _) => "STAR"
  | .select _ => "COLUMN"
  | .insert _ => "INSERT"
  | .create _ => "CREATE"
  | .drop _ => "DROP"
  | .terminate _ => "TERMINATE"
  | .property _ => "PROPERTY"
  | .list _ => "LIST"
  | .display _ => "SHOW"
  | .describe _ => "DESCRIBE"
  | .explain _ => "EXPLAIN"

end StreamSql
