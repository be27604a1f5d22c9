import StreamSql.Query.Shape
import StreamSql.Statement.Basic

/-!
# The shape of statements in documents
-/
namespace StreamSql

open Json (Value)
open Shape

variable {π : Type} [Place π]

def InsertTarget.read : π → Reading InsertTarget :=
  record "struct InsertTarget" ["name", "columns"] fun f =>
    InsertTarget.mk <$> f.required "name" string <*> f.optional "columns" (list string)

def readInserted : π → Reading Literal :=
  record "struct LiteralExpression" ["value"] fun f => id <$> f.required "value" Literal.read

def InsertValue.read : π → Reading InsertValue :=
  record "struct InsertValue" ["column", "value"] fun f =>
    InsertValue.mk <$> f.required "column" string <*> f.required "value" readInserted

def InsertSchemaField.read : π → Reading InsertSchemaField :=
  record "struct InsertSchemaField" ["name", "type", "required"] fun f =>
    InsertSchemaField.mk <$> f.required "name" string
      <*> f.required "type" ColumnType.read
      <*> f.defaulted "required" false bool

def InsertSchema.read : π → Reading InsertSchema :=
  record "struct InsertSchema" ["fields"] fun f =>
    InsertSchema.mk <$> f.required "fields" (list InsertSchemaField.read)

def Insert.readForm : π → Reading Insert :=
  choice "InsertStatement" "type"
    [("VALUES", record "struct InsertValues" ["target", "data", "schema"] fun f =>
        Insert.values <$> f.required "target" InsertTarget.read
          <*> f.required "data" (list InsertValue.read)
          <*> f.optional "schema" InsertSchema.read),
      ("SELECT", record "struct InsertSelect" ["target", "data", "schema"] fun f =>
        Insert.select <$> f.required "target" InsertTarget.read
          <*> f.required "data" Query.read
          <*> f.optional "schema" InsertSchema.read)]

def Insert.read : π → Reading Insert :=
  record "struct InsertQuery" ["statement"] fun f => id <$> f.required "statement" Insert.readForm

def SchemaField.read : π → Reading SchemaField :=
  record "struct SchemaField" ["name", "type", "key"] fun f =>
    SchemaField.mk <$> f.required "name" string
      <*> f.required "type" ColumnType.read
      <*> f.defaulted "key" false bool

def TimestampColumn.read : π → Reading TimestampColumn :=
  record "struct TimestampColumn" ["name", "format"] fun f =>
    TimestampColumn.mk <$> f.required "name" string <*> f.optional "format" string

def CreateOptions.read : π → Reading CreateOptions :=
  record "struct CreateOptions"
    ["format", "kafkaTopic", "partitions", "replicas", "timestampColumn", "stateStoreName",
      "caching"] fun f =>
        CreateOptions.mk <$> f.required "format" FormatConfig.read
          <*> f.optional "kafkaTopic" string
          <*> f.optional "partitions" int64
          <*> f.optional "replicas" int64
          <*> f.optional "timestampColumn" TimestampColumn.read
          <*> f.optional "stateStoreName" string
          <*> f.optional "caching" bool

def Definition.read : Value → Reading Definition :=
  choice "CreateBody" "createType"
    [("SOURCE", record "struct variant CreateBody::Source" ["schema"] fun f =>
        Definition.schema <$> f.required "schema" (list SchemaField.read)),
      ("AS_SELECT", record "struct variant CreateBody::AsSelect" ["select"] fun f =>
        Definition.query <$> f.required "select" Query.read)]

/-- The definition is written among the members of the statement. -/
def Create.read : π → Reading Create :=
  openRecord "struct CreateStatement" ["sourceType", "sourceName", "ifNotExists", "options"]
    fun f =>
      (fun kind name ifNotExists options v =>
          (Create.mk kind name ifNotExists · options) <$> Definition.read v) <$>
        f.required "sourceType" keyword
        <*> f.required "sourceName" string
        <*> f.defaulted "ifNotExists" false bool
        <*> f.required "options" CreateOptions.read

def DropOptions.read : π → Reading DropOptions :=
  record "struct DropOptions" ["ifExists", "deleteTopic"] fun f =>
    DropOptions.mk <$> f.defaulted "ifExists" false bool <*> f.defaulted "deleteTopic" false bool

def Drop.read : π → Reading Drop :=
  record "struct DropStatement" ["sourceType", "sourceName", "options"] fun f =>
    Drop.mk <$> f.required "sourceType" keyword
      <*> f.required "sourceName" string
      <*> f.defaulted "options" {} DropOptions.read

def Terminate.read : π → Reading Terminate :=
  record "struct TerminateQuery" ["queryId"] fun f =>
    Terminate.mk <$> f.required "queryId" string

def Property.read : π → Reading Property :=
  record "struct PropertyStatement" ["action", "property", "value"] fun f =>
    Property.mk <$> f.required "action" keyword
      <*> f.required "property" string
      <*> f.optional "value" string

def ListSources.read : π → Reading ListSources :=
  record "struct ListStatement" ["sourceType", "extended"] fun f =>
    ListSources.mk <$> f.required "sourceType" keyword <*> f.defaulted "extended" false bool

def Show.read : π → Reading Show :=
  record "struct ShowStatement" ["showType", "extended"] fun f =>
    Show.mk <$> f.required "showType" keyword <*> f.defaulted "extended" false bool

/-- What is described, as its kind and name. -/
def readDescribed : π → Reading (SourceKind × String) :=
  record "struct DescribeTarget" ["type", "name"] fun f =>
    Prod.mk <$> f.required "type" keyword <*> f.required "name" string

def Describe.read : π → Reading Describe :=
  record "struct DescribeQuery" ["target", "extended"] fun f =>
    (fun target => Describe.mk target.1 target.2) <$> f.required "target" readDescribed
      <*> f.defaulted "extended" false bool

def Explained.read : π → Reading Explained :=
  choice "RawExplainTarget" "type" <|
    ((Query.variants Query.ofValue).map fun (name, read) =>
      (name, fun v => Explained.query <$> read v)) ++
    [("CREATE", fun v => Explained.create <$> Create.read v)]

def Explain.read : π → Reading Explain :=
  record "struct ExplainQuery" ["statement", "analyze"] fun f =>
    Explain.mk <$> f.required "statement" Explained.read <*> f.defaulted "analyze" false bool

def Statement.read : π → Reading Statement :=
  choice "RawStatement" "type" <|
    ((Query.variants Query.ofValue).map fun (name, read) =>
      (name, fun v => Statement.select <$> read v)) ++
    [("INSERT", fun v => Statement.insert <$> Insert.read v),
      ("CREATE", fun v => Statement.create <$> Create.read v),
      ("DROP", fun v => Statement.drop <$> Drop.read v),
      ("TERMINATE", fun v => Statement.terminate <$> Terminate.read v),
      ("PROPERTY", fun v => Statement.property <$> Property.read v),
      ("LIST", fun v => Statement.list <$> ListSources.read v),
      ("SHOW", fun v => Statement.display <$> Show.read v),
      ("DESCRIBE", fun v => Statement.describe <$> Describe.read v),
      ("EXPLAIN", fun v => Statement.explain <$> Explain.read v)]

end StreamSql
