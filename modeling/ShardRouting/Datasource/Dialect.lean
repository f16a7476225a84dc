import ShardRouting.Text.Quoted

/-!
# Database dialects

The errors that databases report, and which of them mean that the database itself can no longer be
reached. Error numbers differ between database products, the class `08` of SQL states does not.
Main content: `SqlError` and `Dialect.isFatal`.
-/

namespace ShardRouting

/-- An error as a database reports it. -/
structure SqlError where
  /-- The number of the error in its product. -/
  code : Int
  /-- The SQL state, where one is reported. -/
  state : Option String
  /-- The text of the error. -/
  message : String
  deriving DecidableEq, Repr

/-- The SQL state of an error, as messages show it. -/
def SqlError.stateText : Option String → String
  | some state => "Some(" ++ Text.quoted state ++ ")"
  | none => "None"

/-- The wording of a database error. -/
def SqlError.text (e : SqlError) : String :=
  "[" ++ toString e.code ++ "] " ++ e.message ++ " (sqlstate: " ++ SqlError.stateText e.state ++ ")"

/-- A family of database products with error numbers of its own. -/
inductive Dialect where
  /-- No product: no error says anything about the database. -/
  | generic
  /-- Products that number errors as MySQL does. -/
  | mysql
  /-- Products that number errors as Oracle does. -/
  | oracle
  /-- Products that number errors as DB2 does. -/
  | db2
  deriving DecidableEq, Repr

namespace Dialect

/-- The name of a dialect in settings. -/
def name : Dialect → String
  | .generic => "null"
  | .mysql => "mysql"
  | .oracle => "oracle"
  | .db2 => "db2"

/-- The dialects. -/
def all : List Dialect := [.mysql, .oracle, .db2, .generic]

/-- The dialect of a name in settings. -/
def ofName? (s : String) : Option Dialect :=
  all.find? fun d => d.name == s

/-- The server errors of MySQL after which a connection is of no more use. -/
def mysqlCodes : List Int :=
  [1004, 1005, 1015, 1021, 1037, 1038, 1040, 1041, 1042, 1043, 1044, 1045, 1047, 1053, 1077, 1078,
    1079, 1080, 1081, 1129, 1130, 1133, 1135, 1152, 1153, 1154, 1155, 1156, 1157, 1158, 1159, 1160,
    1161, 1184, 1189, 1190, 1218, 1312, 1314, 1335, 1336, 1379, 1380, 1381, 1382]

/-- The errors of Oracle after which a connection is of no more use, by their magnitude. -/
def oracleCodes : List Nat :=
  [28, 600, 1012, 1014, 1033, 1034, 1035, 1089, 1090, 1092, 1094, 2396, 3106, 3111, 3113, 3114,
    3134, 3135, 3136, 3138, 3142, 3143, 3144, 3145, 3149, 6802, 6803, 6804, 6805, 9918, 9920, 9921,
    17002, 17008, 17410, 17401]

/-- The errors of DB2 after which a connection is of no more use. -/
def db2Codes : List Int :=
  [-512, -514, -516, -518, -525, -909, -918, -924, -1032, -1224, -4470, -4499, -30081, -30108]

/-- Whether an error carries an SQL state of the class of connection errors. -/
def isConnectionState (e : SqlError) : Bool :=
  match e.state with
  | some state => ['0', '8'].isPrefixOf state.toList
  | none => false

/-- Whether the number of an error means that its connection is of no more use. -/
def isFatalCode : Dialect → Int → Bool
  | .generic, _ => false
  | .mysql, code => (2000 ≤ code && code ≤ 2999) || mysqlCodes.contains code
  | .oracle, code =>
    oracleCodes.contains code.natAbs || (12100 ≤ code.natAbs && code.natAbs ≤ 12299) ||
      (12500 ≤ code.natAbs && code.natAbs ≤ 12599)
  | .db2, code => db2Codes.contains code

/-- Whether an error means that the connection it came over is of no more use. -/
def isFatal (d : Dialect) (e : SqlError) : Bool :=
  d ≠ .generic && (isConnectionState e || d.isFatalCode e.code)

end Dialect

end ShardRouting
