import StreamSql.Keyword

/-!
# The vocabularies of the language

Every closed set of words a statement may hold, with the tokens the engine knows them by.
-/
namespace StreamSql

/-- Column types without parts. -/
inductive ScalarType where
  | boolean | integer | bigint | double | string | date | time | timestamp | decimal | interval
  deriving DecidableEq

instance : Keyword ScalarType where
  all := [.boolean, .integer, .bigint, .double, .string, .date, .time, .timestamp, .decimal,
    .interval]
  token
    | .boolean => "BOOLEAN"
    | .integer => "INTEGER"
    | .bigint => "BIGINT"
    | .double => "DOUBLE"
    | .string => "STRING"
    | .date => "DATE"
    | .time => "TIME"
    | .timestamp => "TIMESTAMP"
    | .decimal => "DECIMAL"
    | .interval => "INTERVAL"
  label := "simple type"
  mem_all a := by cases a <;> decide
  tokens_nodup := by decide

inductive TextFunction where
  | substring | concat | trim | upper | lower | replace | split | len | ltrim | rtrim | initCap
  | position | splitPart | charLength | lcase | ucase
  deriving DecidableEq

instance : Keyword TextFunction where
  all := [.substring, .concat, .trim, .upper, .lower, .replace, .split, .len, .ltrim, .rtrim,
    .initCap, .position, .splitPart, .charLength, .lcase, .ucase]
  token
    | .substring => "SUBSTRING"
    | .concat => "CONCAT"
    | .trim => "TRIM"
    | .upper => "UPPER"
    | .lower => "LOWER"
    | .replace => "REPLACE"
    | .split => "SPLIT"
    | .len => "LEN"
    | .ltrim => "LTRIM"
    | .rtrim => "RTRIM"
    | .initCap => "INITCAP"
    | .position => "POSITION"
    | .splitPart => "SPLIT_PART"
    | .charLength => "CHAR_LENGTH"
    | .lcase => "LCASE"
    | .ucase => "UCASE"
  label := "string function"
  mem_all a := by cases a <;> decide
  tokens_nodup := by decide

inductive NumericFunction where
  | abs | ceil | floor | round | random | sign | sqrt | exp | ln | log10 | power | mod
  | roundDecimal | gcd | lcm
  deriving DecidableEq

instance : Keyword NumericFunction where
  all := [.abs, .ceil, .floor, .round, .random, .sign, .sqrt, .exp, .ln, .log10, .power, .mod,
    .roundDecimal, .gcd, .lcm]
  token
    | .abs => "ABS"
    | .ceil => "CEIL"
    | .floor => "FLOOR"
    | .round => "ROUND"
    | .random => "RANDOM"
    | .sign => "SIGN"
    | .sqrt => "SQRT"
    | .exp => "EXP"
    | .ln => "LN"
    | .log10 => "LOG10"
    | .power => "POWER"
    | .mod => "MOD"
    | .roundDecimal => "ROUND_DECIMAL"
    | .gcd => "GCD"
    | .lcm => "LCM"
  label := "numeric function"
  mem_all a := by cases a <;> decide
  tokens_nodup := by decide

inductive DateFunction where
  | dateAdd | dateDiff | dateTrunc | unixDate | unixTimestamp | timestampToString
  | stringToTimestamp | formatDate | parseTimestamp | formatTimestamp
  deriving DecidableEq

instance : Keyword DateFunction where
  all := [.dateAdd, .dateDiff, .dateTrunc, .unixDate, .unixTimestamp, .timestampToString,
    .stringToTimestamp, .formatDate, .parseTimestamp, .formatTimestamp]
  token
    | .dateAdd => "DATEADD"
    | .dateDiff => "DATEDIFF"
    | .dateTrunc => "DATETRUNC"
    | .unixDate => "UNIX_DATE"
    | .unixTimestamp => "UNIX_TIMESTAMP"
    | .timestampToString => "TIMESTAMPTOSTRING"
    | .stringToTimestamp => "STRINGTOTIMESTAMP"
    | .formatDate => "FORMAT_DATE"
    | .parseTimestamp => "PARSE_TIMESTAMP"
    | .formatTimestamp => "FORMAT_TIMESTAMP"
  label := "date function"
  mem_all a := by cases a <;> decide
  tokens_nodup := by decide

inductive AggregateFunction where
  | count | sum | avg | min | max | topK | topKDistinct | collectList | collectSet
  | countDistinct
  deriving DecidableEq

instance : Keyword AggregateFunction where
  all := [.count, .sum, .avg, .min, .max, .topK, .topKDistinct, .collectList, .collectSet,
    .countDistinct]
  token
    | .count => "COUNT"
    | .sum => "SUM"
    | .avg => "AVG"
    | .min => "MIN"
    | .max => "MAX"
    | .topK => "TOPK"
    | .topKDistinct => "TOPKDISTINCT"
    | .collectList => "COLLECT_LIST"
    | .collectSet => "COLLECT_SET"
    | .countDistinct => "COUNT_DISTINCT"
  label := "aggregate function"
  mem_all a := by cases a <;> decide
  tokens_nodup := by decide

inductive CollectionFunction where
  | arrayLength | arrayContains | array | arrayJoin | arrayDistinct | arrayRemove
  | arrayPosition | extract | asMap | toStruct | get | getField | asArray | collectSet
  | collectList
  deriving DecidableEq

instance : Keyword CollectionFunction where
  all := [.arrayLength, .arrayContains, .array, .arrayJoin, .arrayDistinct, .arrayRemove,
    .arrayPosition, .extract, .asMap, .toStruct, .get, .getField, .asArray, .collectSet,
    .collectList]
  token
    | .arrayLength => "ARRAY_LENGTH"
    | .arrayContains => "ARRAY_CONTAINS"
    | .array => "ARRAY"
    | .arrayJoin => "ARRAY_JOIN"
    | .arrayDistinct => "ARRAY_DISTINCT"
    | .arrayRemove => "ARRAY_REMOVE"
    | .arrayPosition => "ARRAY_POSITION"
    | .extract => "EXTRACT"
    | .asMap => "AS_MAP"
    | .toStruct => "TO_STRUCT"
    | .get => "GET"
    | .getField => "GET_FIELD"
    | .asArray => "AS_ARRAY"
    | .collectSet => "COLLECT_SET"
    | .collectList => "COLLECT_LIST"
  label := "collection function"
  mem_all a := by cases a <;> decide
  tokens_nodup := by decide

/-- Functions that take an `OVER` clause. -/
inductive AnalyticFunction where
  | lag | lead
  deriving DecidableEq

instance : Keyword AnalyticFunction where
  all := [.lag, .lead]
  token
    | .lag => "LAG"
    | .lead => "LEAD"
  label := "window function"
  mem_all a := by cases a <;> decide
  tokens_nodup := by decide

inductive ArithmeticOperator where
  | add | subtract | multiply | divide | modulo
  deriving DecidableEq

instance : Keyword ArithmeticOperator where
  all := [.add, .subtract, .multiply, .divide, .modulo]
  token
    | .add => "+"
    | .subtract => "-"
    | .multiply => "*"
    | .divide => "/"
    | .modulo => "%"
  label := "arithmetic operator"
  mem_all a := by cases a <;> decide
  tokens_nodup := by decide

/-- Comparison operators with one right operand. -/
inductive BinaryOperator where
  | equal | notEqual | less | lessOrEqual | greater | greaterOrEqual | like | notLike
  deriving DecidableEq

instance : Keyword BinaryOperator where
  all := [.equal, .notEqual, .less, .lessOrEqual, .greater, .greaterOrEqual, .like, .notLike]
  token
    | .equal => "="
    | .notEqual => "!="
    | .less => "<"
    | .lessOrEqual => "<="
    | .greater => ">"
    | .greaterOrEqual => ">="
    | .like => "LIKE"
    | .notLike => "NOT LIKE"
  label := "binary comparison operator"
  mem_all a := by cases a <;> decide
  tokens_nodup := by decide

/-- Comparison operators with a list on the right. -/
inductive MembershipOperator where
  | isIn | notIn
  deriving DecidableEq

instance : Keyword MembershipOperator where
  all := [.isIn, .notIn]
  token
    | .isIn => "IN"
    | .notIn => "NOT IN"
  label := "membership operator"
  mem_all a := by cases a <;> decide
  tokens_nodup := by decide

/-- Comparison operators with two bounds on the right. -/
inductive RangeOperator where
  | between | notBetween
  deriving DecidableEq

instance : Keyword RangeOperator where
  all := [.between, .notBetween]
  token
    | .between => "BETWEEN"
    | .notBetween => "NOT BETWEEN"
  label := "range operator"
  mem_all a := by cases a <;> decide
  tokens_nodup := by decide

/-- Comparison operators with nothing on the right. -/
inductive NullCheck where
  | isNull | isNotNull
  deriving DecidableEq

instance : Keyword NullCheck where
  all := [.isNull, .isNotNull]
  token
    | .isNull => "IS NULL"
    | .isNotNull => "IS NOT NULL"
  label := "null check operator"
  mem_all a := by cases a <;> decide
  tokens_nodup := by decide

/-- An operator belongs to the family that fixes the shape of its right side. -/
inductive ComparisonOperator where
  | binary (operator : BinaryOperator)
  | membership (operator : MembershipOperator)
  | range (operator : RangeOperator)
  | nullCheck (operator : NullCheck)
  deriving DecidableEq

namespace ComparisonOperator

def binary? : ComparisonOperator → Option BinaryOperator
  | .binary operator => some operator
  | _ => none

def membership? : ComparisonOperator → Option MembershipOperator
  | .membership operator => some operator
  | _ => none

def range? : ComparisonOperator → Option RangeOperator
  | .range operator => some operator
  | _ => none

def nullCheck? : ComparisonOperator → Option NullCheck
  | .nullCheck operator => some operator
  | _ => none

end ComparisonOperator

instance : Keyword ComparisonOperator where
  all := [.binary .equal, .binary .notEqual, .binary .less, .binary .lessOrEqual, .binary .greater,
    .binary .greaterOrEqual, .nullCheck .isNull, .nullCheck .isNotNull, .membership .isIn,
    .membership .notIn, .binary .like, .binary .notLike, .range .between, .range .notBetween]
  token
    | .binary operator => Keyword.token operator
    | .membership operator => Keyword.token operator
    | .range operator => Keyword.token operator
    | .nullCheck operator => Keyword.token operator
  label := "comparison operator"
  mem_all a := by rcases a with o | o | o | o <;> cases o <;> decide
  tokens_nodup := by decide

/-- Connectives of any number of conditions. -/
inductive Junction where
  | and | or
  deriving DecidableEq

instance : Keyword Junction where
  all := [.and, .or]
  token
    | .and => "AND"
    | .or => "OR"
  label := "junction operator"
  mem_all a := by cases a <;> decide
  tokens_nodup := by decide

inductive LogicalOperator where
  | junction (operator : Junction)
  | not
  deriving DecidableEq

instance : Keyword LogicalOperator where
  all := [.junction .and, .junction .or, .not]
  token
    | .junction operator => Keyword.token operator
    | .not => "NOT"
  label := "logical operator"
  mem_all a := by rcases a with (_ | _) | _ <;> decide
  tokens_nodup := by decide

inductive SourceKind where
  | stream | table
  deriving DecidableEq

instance : Keyword SourceKind where
  all := [.stream, .table]
  token
    | .stream => "STREAM"
    | .table => "TABLE"
  label := "source type"
  mem_all a := by cases a <;> decide
  tokens_nodup := by decide

/-- The form `LIST` takes. -/
def SourceKind.plural : SourceKind → String
  | .stream => "STREAMS"
  | .table => "TABLES"

inductive JoinKind where
  | inner | leftOuter | fullOuter
  deriving DecidableEq

instance : Keyword JoinKind where
  all := [.inner, .leftOuter, .fullOuter]
  token
    | .inner => "INNER"
    | .leftOuter => "LEFT OUTER"
    | .fullOuter => "FULL OUTER"
  label := "join type"
  mem_all a := by cases a <;> decide
  tokens_nodup := by decide

inductive TimeUnit where
  | milliseconds | seconds | minutes | hours | days
  deriving DecidableEq

instance : Keyword TimeUnit where
  all := [.milliseconds, .seconds, .minutes, .hours, .days]
  token
    | .milliseconds => "MILLISECONDS"
    | .seconds => "SECONDS"
    | .minutes => "MINUTES"
    | .hours => "HOURS"
    | .days => "DAYS"
  label := "window time unit"
  mem_all a := by cases a <;> decide
  tokens_nodup := by decide

inductive WindowBoundary where
  | windowStart | windowEnd
  deriving DecidableEq

instance : Keyword WindowBoundary where
  all := [.windowStart, .windowEnd]
  token
    | .windowStart => "WINDOWSTART"
    | .windowEnd => "WINDOWEND"
  label := "window boundary"
  mem_all a := by cases a <;> decide
  tokens_nodup := by decide

/-- The part of a time that `EXTRACT` takes out. -/
inductive TimeField where
  | year | month | day | hour | minute | second | millisecond
  deriving DecidableEq

instance : Keyword TimeField where
  all := [.year, .month, .day, .hour, .minute, .second, .millisecond]
  token
    | .year => "YEAR"
    | .month => "MONTH"
    | .day => "DAY"
    | .hour => "HOUR"
    | .minute => "MINUTE"
    | .second => "SECOND"
    | .millisecond => "MILLISECOND"
  label := "extract field"
  mem_all a := by cases a <;> decide
  tokens_nodup := by decide

/-- How keys and values are stored. -/
inductive Format where
  | json | avro | protobuf | kafka | delimited
  deriving DecidableEq

instance : Keyword Format where
  all := [.json, .avro, .protobuf, .kafka, .delimited]
  token
    | .json => "JSON"
    | .avro => "AVRO"
    | .protobuf => "PROTOBUF"
    | .kafka => "KAFKA"
    | .delimited => "DELIMITED"
  label := "serialization format"
  mem_all a := by cases a <;> decide
  tokens_nodup := by decide

inductive EmitMode where
  | changes | final
  deriving DecidableEq

instance : Keyword EmitMode where
  all := [.changes, .final]
  token
    | .changes => "CHANGES"
    | .final => "FINAL"
  label := "emit type"
  mem_all a := by cases a <;> decide
  tokens_nodup := by decide

inductive Direction where
  | ascending | descending
  deriving DecidableEq

instance : Keyword Direction where
  all := [.ascending, .descending]
  token
    | .ascending => "ASC"
    | .descending => "DESC"
  label := "order direction"
  mem_all a := by cases a <;> decide
  tokens_nodup := by decide

inductive NullPlacement where
  | first | last
  deriving DecidableEq

instance : Keyword NullPlacement where
  all := [.first, .last]
  token
    | .first => "NULLS FIRST"
    | .last => "NULLS LAST"
  label := "null handling"
  mem_all a := by cases a <;> decide
  tokens_nodup := by decide

inductive PropertyAction where
  | assign | display
  deriving DecidableEq

instance : Keyword PropertyAction where
  all := [.assign, .display]
  token
    | .assign => "SET"
    | .display => "SHOW"
  label := "property action"
  mem_all a := by cases a <;> decide
  tokens_nodup := by decide

/-- What `SHOW` lists. -/
inductive Listing where
  | queries | properties | topics | variables
  deriving DecidableEq

instance : Keyword Listing where
  all := [.queries, .properties, .topics, .variables]
  token
    | .queries => "QUERIES"
    | .properties => "PROPERTIES"
    | .topics => "TOPICS"
    | .variables => "VARIABLES"
  label := "show type"
  mem_all a := by cases a <;> decide
  tokens_nodup := by decide

end StreamSql
