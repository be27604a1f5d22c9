import StreamSql.Window.Basic
import StreamSql.Binary64.Decimal

/-!
# Violations

The rules a statement can break, each with the words it is reported in.
-/
namespace StreamSql

def Duration.sql (d : Duration) : String :=
  toString d.value.toInt ++ " " ++ Keyword.token d.unit

inductive Violation where
  | invalidDuration (duration : Duration)
  | sessionWithExtras
  | referenceUnnamed
  | boundariesEmpty
  | structEmpty
  | invalidStructField (name : String)
  | columnUnnamed
  | literalNotFinite (value : Binary64)
  | misplaced (operation place : String)
  | negationArity (count : Nat)
  | logicalEmpty (operator : Junction)
  | caseEmpty
  | caseWithoutElse
  | fieldUnnamed
  | invalidAlias (name : String)
  | invalidOverAlias (name : String)
  | junctionEmpty (operator : Junction)
  | aggregateNullCheck (operator : NullCheck)
  | comparedOperation (operation : String)
  | comparedPlain
  | partitionEmpty
  | groupEmpty
  | selectEmpty
  | orderEmpty
  | invalidFrom (name : String)
  | sourceKindDiffers (name : String) (kind clause : SourceKind)
  | invalidSubqueryAlias (name : String)
  | kindOnly (kind : SourceKind) (option : String)
  | invalidPartitionColumn (name : String)
  | invalidClusterColumn (name : String)
  | timestampUnnamed
  | notPositive (option : String) (value : Int64)
  | topicBlank
  | storeBlank
  | invalidJoinSource (name : String)
  | tableJoinsStream (name : String)
  | joinWithoutWindow (name : String)
  | joinWithWindow (name : String)
  | joinUnconditioned
  | joinFieldMissing
  | invalidTarget (name : String)
  | targetColumnsEmpty
  | invalidTargetColumn (name : String)
  | invalidSchemaField (name : String)
  | valuesEmpty
  | invalidInsertColumn (name : String)
  | duplicateInsertColumn (name : String)
  | targetColumnsDiffer (target inserted : List String)
  | schemaEmpty
  | kafkaTopicBlank
  | timestampColumnUnnamed
  | invalidSource (name : String)
  | invalidQueryId
  | invalidProperty (name : String)
  | propertyUnset
  | propertyValued
  | invalidDescribed (name : String)
  | explainedSchema

/-- Names are shown between single quotes, as they were given. -/
private def shown (name : String) : String :=
  "'" ++ name ++ "'"

def Violation.message : Violation → String
  | invalidDuration duration => "Invalid window duration: " ++ duration.sql
  | sessionWithExtras =>
    "Session windows do not support retention or grace periods, only inactivity gap"
  | referenceUnnamed => "Window reference name is required"
  | boundariesEmpty => "Window boundaries are required"
  | structEmpty => "Struct must have at least one field"
  | invalidStructField name => "Invalid struct field name: " ++ shown name
  | columnUnnamed => "Column name is required"
  | literalNotFinite value => "Invalid literal value: " ++ value.text
  | misplaced operation place => operation ++ " transformation is not allowed in " ++ place
  | negationArity count => "NOT requires exactly one expression, got " ++ toString count
  | logicalEmpty operator => Keyword.token operator ++ " requires at least one expression"
  | caseEmpty => "CASE requires at least one WHEN branch"
  | caseWithoutElse => "Invalid condition, else is required"
  | fieldUnnamed => "Struct field name is required"
  | invalidAlias name => "Invalid alias: " ++ shown name
  | invalidOverAlias name => "Invalid window alias: " ++ shown name
  | junctionEmpty operator => Keyword.token operator ++ " requires at least one condition"
  | aggregateNullCheck operator =>
    Keyword.token operator ++ " is not supported for aggregate HAVING conditions"
  | comparedOperation operation =>
    "HAVING comparison requires an arithmetic, aggregate, numeric or window boundary left " ++
      "operand, got " ++ operation
  | comparedPlain => "HAVING comparison requires a computed left operand"
  | partitionEmpty => "Partition by columns are required"
  | groupEmpty => "Group by columns are required"
  | selectEmpty => "Select columns are required"
  | orderEmpty => "Order by columns are required"
  | invalidFrom name => "Invalid from source: " ++ shown name
  | sourceKindDiffers name kind clause =>
    "Source " ++ name ++ " is a " ++ Keyword.token kind ++ " but the from clause reads a " ++
      Keyword.token clause
  | invalidSubqueryAlias name => "Invalid subquery alias: " ++ shown name
  | kindOnly kind option =>
    option ++ " is only supported for " ++ Keyword.token kind ++ " sources"
  | invalidPartitionColumn name => "Invalid partition by column: " ++ shown name
  | invalidClusterColumn name => "Invalid cluster by column: " ++ shown name
  | timestampUnnamed => "Timestamp column is required"
  | notPositive option value => "Invalid " ++ option ++ ": " ++ toString value.toInt
  | topicBlank => "Topic name must not be empty"
  | storeBlank => "State store name must not be empty"
  | invalidJoinSource name => "Invalid join source: " ++ shown name
  | tableJoinsStream name => "TABLE sources cannot join STREAM " ++ name
  | joinWithoutWindow name => "STREAM-STREAM join with " ++ name ++ " requires a WITHIN window"
  | joinWithWindow name => "Join with TABLE " ++ name ++ " does not take a WITHIN window"
  | joinUnconditioned => "Join conditions are required"
  | joinFieldMissing => "Join condition requires both fields"
  | invalidTarget name => "Invalid target name: " ++ shown name
  | targetColumnsEmpty => "Target columns are required"
  | invalidTargetColumn name => shown name
  | invalidSchemaField name => "Invalid schema field: " ++ shown name
  | valuesEmpty => "No values to insert"
  | invalidInsertColumn name => "Invalid column: " ++ shown name
  | duplicateInsertColumn name => "Duplicate insert column: " ++ name
  | targetColumnsDiffer target inserted =>
    "Target columns (" ++ String.intercalate ", " target ++
      ") do not match inserted columns (" ++ String.intercalate ", " inserted ++ ")"
  | schemaEmpty => "Schema is required"
  | kafkaTopicBlank => "Kafka topic must not be empty"
  | timestampColumnUnnamed => "Timestamp column name is required"
  | invalidSource name => "Invalid source name: " ++ shown name
  | invalidQueryId => "Invalid query ID"
  | invalidProperty name => "Invalid property name: " ++ shown name
  | propertyUnset => "SET action requires a value"
  | propertyValued => "SHOW action does not require a value"
  | invalidDescribed name => "Invalid target name: " ++ shown name
  | explainedSchema => "Only AS SELECT create statements are supported"

end StreamSql
