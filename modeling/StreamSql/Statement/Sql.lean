import StreamSql.Query.Sql
import StreamSql.Statement.Basic

/-!
# The text of statements

Every statement ends in a semicolon.
-/
namespace StreamSql

def InsertTarget.columnsSql (t : InsertTarget) : String :=
  match t.columns with
  | some (column :: columns) => " (" ++ Text.commas (column :: columns) ++ ")"
  | _ => ""

/-- Inserted values name their own columns, whatever columns the target names. -/
def Insert.sql : Insert → String
  | .values target data _ =>
    "INSERT INTO " ++ target.name ++ " (" ++ Text.commas (data.map InsertValue.column) ++
      ") VALUES (" ++ Text.commas (data.map fun v => v.value.quotedSql) ++ ");"
  | .select target data _ =>
    "INSERT INTO " ++ target.name ++ target.columnsSql ++ " " ++ data.sql ++ ";"

def keySql : SourceKind → String
  | .stream => " KEY"
  | .table => " PRIMARY KEY"

def SchemaField.sql (kind : SourceKind) (f : SchemaField) : String :=
  f.name ++ " " ++ f.type.sql ++ Text.flag (keySql kind) f.key

/-- The settings of a format in their order, each as `NAME=value`. -/
def FormatConfig.settings (f : FormatConfig) : List String :=
  ["VALUE_FORMAT=" ++ Text.quote (Keyword.token f.valueFormat)] ++
    (f.keyFormat.map fun k => "KEY_FORMAT=" ++ Text.quote (Keyword.token k)).toList ++
    (f.schemaRegistryUrl.map fun u => "SCHEMA_REGISTRY_URL=" ++ Text.quote u).toList ++
    (f.wrapSingleValue.map fun b => "WRAP_SINGLE_VALUE=" ++ Text.ofBool b).toList

def TimestampColumn.settings (t : TimestampColumn) : List String :=
  ["TIMESTAMP=" ++ Text.quote t.name] ++
    (t.format.map fun f => "TIMESTAMP_FORMAT=" ++ Text.quote f).toList

def CreateOptions.settings (o : CreateOptions) : List String :=
  o.format.settings ++
    (o.topic.map fun t => "KAFKA_TOPIC=" ++ Text.quote t).toList ++
    (o.partitions.map fun n => "PARTITIONS=" ++ toString n.toInt).toList ++
    (o.replicas.map fun n => "REPLICAS=" ++ toString n.toInt).toList ++
    (o.timestamp.map TimestampColumn.settings).getD [] ++
    (o.stateStoreName.map fun s => "STATE_STORE_NAME=" ++ Text.quote s).toList ++
    (o.caching.map fun b => "CACHING=" ++ Text.ofBool b).toList

def CreateOptions.sql (o : CreateOptions) : String :=
  "WITH (" ++ Text.commas o.settings ++ ")"

/-- A declared schema stands before the options, and a query after them. -/
def Create.body (c : Create) : String :=
  match c.definition with
  | .schema fields =>
    "(" ++ Text.commas (fields.map (SchemaField.sql c.kind)) ++ ") " ++ c.options.sql
  | .query query => c.options.sql ++ " AS " ++ query.sql

/-- The statement without its terminator. -/
def Create.opened (c : Create) : String :=
  "CREATE" ++ Text.flag " IF NOT EXISTS" c.ifNotExists ++ " " ++ Keyword.token c.kind ++ " " ++
    c.name ++ " " ++ c.body

def Create.sql (c : Create) : String :=
  c.opened ++ ";"

def Drop.sql (d : Drop) : String :=
  "DROP " ++ Keyword.token d.kind ++ Text.flag " IF EXISTS" d.options.ifExists ++ " " ++ d.name ++
    Text.flag " DELETE TOPIC" d.options.deleteTopic ++ ";"

def Terminate.sql (t : Terminate) : String :=
  "TERMINATE " ++ t.queryId ++ ";"

def Property.sql (p : Property) : String :=
  match p.action, p.value with
  | .assign, some value => "SET " ++ Text.quote p.name ++ "=" ++ Text.quote value ++ ";"
  | _, _ => "SHOW " ++ p.name ++ ";"

def ListSources.sql (l : ListSources) : String :=
  "LIST " ++ l.kind.plural ++ Text.flag " EXTENDED" l.extended ++ ";"

def Show.sql (s : Show) : String :=
  "SHOW " ++ Keyword.token s.listing ++ Text.flag " EXTENDED" s.extended ++ ";"

def Describe.sql (d : Describe) : String :=
  "DESCRIBE " ++ d.name ++ Text.flag " EXTENDED" d.extended ++ ";"

def Explained.sql : Explained → String
  | .query q => q.sql
  | .create c => c.opened

def Explain.sql (e : Explain) : String :=
  "EXPLAIN " ++ Text.flag "ANALYZE " e.analyze ++ e.statement.sql ++ ";"

def Statement.sql : Statement → String
  | .select q => q.sql ++ ";"
  | .insert i => i.sql
  | .create c => c.sql
  | .drop d => d.sql
  | .terminate t => t.sql
  | .property p => p.sql
  | .list l => l.sql
  | .display d => d.sql
  | .describe d => d.sql
  | .explain e => e.sql

end StreamSql
