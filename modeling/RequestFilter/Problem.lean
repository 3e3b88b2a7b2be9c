import RequestFilter.FieldType
import RequestFilter.Path

/-!
Every problem has a code, and the code says at whose side the fault is: a client has to change the
request, a server its configuration.
-/

namespace RequestFilter

inductive Blame where
  | client | server
  deriving DecidableEq, Repr

namespace Blame

def status : Blame → Nat
  | client => 400
  | server => 500

end Blame

inductive Code where
  | validation | invalidValue | unsupportedOperator | invalidArity | rejectedValue | invalidSort
  | misconfigured | unresolvablePath | missingFieldType | missingOperator | invalidConfiguration
  | internal
  deriving DecidableEq, Repr

namespace Code

def number : Code → Nat
  | validation => 1000
  | invalidValue => 1001
  | unsupportedOperator => 1002
  | invalidArity => 1003
  | rejectedValue => 1004
  | invalidSort => 1005
  | misconfigured => 7000
  | unresolvablePath => 7001
  | missingFieldType => 7002
  | missingOperator => 7003
  | invalidConfiguration => 7004
  | internal => 9001

def text (code : Code) : String := "F" ++ Digits.text code.number

def blame (code : Code) : Blame := if code.number < 7000 then .client else .server

def description : Code → String
  | validation => "Invalid filter input"
  | invalidValue => "Invalid filter value"
  | unsupportedOperator => "Unsupported operator"
  | invalidArity => "Wrong number of values"
  | rejectedValue => "Rejected filter value"
  | invalidSort => "Invalid sort field"
  | misconfigured => "Filter misconfiguration"
  | unresolvablePath => "Unresolvable field path"
  | missingFieldType => "Missing field type"
  | missingOperator => "Missing operator implementation"
  | invalidConfiguration => "Invalid configuration"
  | internal => "Internal error"

end Code

inductive Problem where
  | invalidValue (fault : CastFault)
  | unsupportedOperator (op : Operator) (type : DataType)
  | arity (op : Operator) (expected : String) (got : Nat)
  | textRequired
  | rejected (message : String)
  | undeclaredSort (path : String)
  | unresolvableSort (path : String) (fault : PathFault)
  | unresolvable (fault : PathFault)
  | missingFieldType (type : DataType)
  | missingRule (op : Operator)
  | notComparison (op : Operator)
  | reported (code : Code) (message : String)
  deriving DecidableEq, Repr

namespace Problem

def code : Problem → Code
  | invalidValue _ => .invalidValue
  | unsupportedOperator _ _ => .unsupportedOperator
  | arity _ _ _ => .invalidArity
  | textRequired => .rejectedValue
  | rejected _ => .rejectedValue
  | undeclaredSort _ => .invalidSort
  | unresolvableSort _ _ => .invalidSort
  | unresolvable _ => .unresolvablePath
  | missingFieldType _ => .missingFieldType
  | missingRule _ => .missingOperator
  | notComparison _ => .missingOperator
  | reported code _ => code

def message : Problem → String
  | invalidValue fault => fault.message
  | unsupportedOperator op type =>
    "operator `" ++ op.token ++ "` is not supported for " ++ type.name ++ " fields"
  | arity op expected got =>
    "`" ++ op.token ++ "` expects " ++ expected ++ " value(s), got " ++ Digits.text got
  | textRequired => "pattern matching requires a text value"
  | rejected message => message
  | undeclaredSort path => "cannot sort by `" ++ path ++ "`: not a filterable field"
  | unresolvableSort path fault => "cannot sort by `" ++ path ++ "`: " ++ fault.message
  | unresolvable fault => fault.message
  | missingFieldType type => "no field type registered for " ++ type.name
  | missingRule op => "no implementation registered for operator `" ++ op.token ++ "`"
  | notComparison op => "`" ++ op.token ++ "` is not a comparison operator"
  | reported _ message => message

def blame (problem : Problem) : Blame := problem.code.blame

end Problem

end RequestFilter
