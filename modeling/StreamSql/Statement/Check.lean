import StreamSql.Query.Check
import StreamSql.Statement.Basic

/-!
# Checking statements

A statement passes when every part of it keeps the rules, whether or not the part has text.
-/
namespace StreamSql

open Check

def InsertTarget.check (t : InsertTarget) : Check := do
  require (Text.isIdentifier t.name) (.invalidTarget t.name)
  ofOption (fun columns => do
    require (!columns.isEmpty) .targetColumnsEmpty
    each "Invalid target columns"
      (columns.map fun c => require (Text.isIdentifier c) (.invalidTargetColumn c))) t.columns

def InsertSchemaField.check (f : InsertSchemaField) : Check := do
  require (Text.isIdentifier f.name) (.invalidSchemaField f.name)
  f.type.check

def InsertSchema.check (s : InsertSchema) : Check :=
  each "Invalid schema" (s.fields.map InsertSchemaField.check)

def InsertValue.check (v : InsertValue) : Check := do
  require (Text.isIdentifier v.column) (.invalidInsertColumn v.column)
  v.value.check

/-- The first element that has occurred before it. -/
def firstRepeated? : List String → List String → Option String
  | _, [] => none
  | seen, s :: rest => if seen.contains s then some s else firstRepeated? (s :: seen) rest

/-- Each column is given one value, in the order of the target's columns if it names them. -/
def checkValues (target : InsertTarget) (data : List InsertValue) : Check := do
  let inserted := data.map InsertValue.column
  require (!data.isEmpty) .valuesEmpty
  each "Invalid values" (data.map InsertValue.check)
  ofOption (fun name => violated (.duplicateInsertColumn name)) (firstRepeated? [] inserted)
  ofOption (fun columns =>
    require (columns == inserted) (.targetColumnsDiffer columns inserted)) target.columns

def Insert.checkData : Insert → Check
  | .values target data _ => checkValues target data
  | .select _ data _ => within "Invalid insert select" data.check

def Insert.check (i : Insert) : Check := do
  i.target.check
  ofOption InsertSchema.check i.schema
  i.checkData

def SchemaField.check (f : SchemaField) : Check := do
  require (Text.isIdentifier f.name) (.invalidSchemaField f.name)
  within ("Invalid schema field: " ++ f.name) f.type.check

def Definition.check : Definition → Check
  | .schema fields => do
    require (!fields.isEmpty) .schemaEmpty
    each none (fields.map SchemaField.check)
  | .query q => within "Invalid select statement" q.check

def CreateOptions.check (kind : SourceKind) (o : CreateOptions) : Check :=
  each "Invalid options"
    [ofOption (fun t => require (!Text.isBlank t) .kafkaTopicBlank) o.topic,
      checkPositive "partitions" o.partitions,
      checkPositive "replicas" o.replicas,
      ofOption (fun t => require (!Text.isBlank t.name) .timestampColumnUnnamed) o.timestamp,
      checkKindOnly .table kind o.stateStoreName.isSome "STATE_STORE_NAME",
      checkKindOnly .table kind o.caching.isSome "CACHING"]

def Create.check (c : Create) : Check := do
  require (Text.isIdentifier c.name) (.invalidSource c.name)
  c.definition.check
  c.options.check c.kind

def Drop.check (d : Drop) : Check :=
  require (Text.isQualified d.name) (.invalidSource d.name)

def Terminate.check (t : Terminate) : Check :=
  require (Text.isQueryId t.queryId) .invalidQueryId

/-- Setting a property needs a value that is not empty, and showing one takes none. -/
def Property.checkValue (p : Property) : Check :=
  match p.action, p.value with
  | .assign, some value => require (!value.isEmpty) .propertyUnset
  | .assign, none => violated .propertyUnset
  | .display, none => pass
  | .display, some _ => violated .propertyValued

def Property.check (p : Property) : Check := do
  require (Text.isPropertyName p.name) (.invalidProperty p.name)
  p.checkValue

def Describe.check (d : Describe) : Check :=
  require (Text.isDescribable d.name) (.invalidDescribed d.name)

/-- Only a source that is made from a query has a plan to explain. -/
def Explained.check : Explained → Check
  | .query q => q.check
  | .create c =>
    match c.definition with
    | .query _ => c.check
    | .schema _ => violated .explainedSchema

def Statement.check : Statement → Check
  | .select q => q.check
  | .insert i => i.check
  | .create c => c.check
  | .drop d => d.check
  | .terminate t => t.check
  | .property p => p.check
  | .list _ => pass
  | .display _ => pass
  | .describe d => d.check
  | .explain e => e.statement.check

end StreamSql
