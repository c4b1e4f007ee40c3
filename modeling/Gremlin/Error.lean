/-!
# Errors

What can be wrong with the arguments of a step or with a configuration. Each
cause carries what its message names.
-/

namespace Gremlin

/-- Why a caller's arguments or configuration were refused. -/
inductive Error
  /-- A step that takes one or more arguments was given none. -/
  | emptyArgumentList (step : String)
  /-- An argument has a value that it cannot have. -/
  | invalidArgument (text : String)
  /-- A configuration text could not be read. -/
  | unreadableConfig (text : String)
  deriving DecidableEq, Repr

namespace Error

/-- The message shown to the caller. -/
def message : Error → String
  | emptyArgumentList step => "参数列表不能为空: " ++ step ++ "()"
  | invalidArgument text => "无效的参数: " ++ text
  | unreadableConfig text => "配置错误: " ++ text

/-- Whether the caller's arguments are to blame, as opposed to a text that could
not be read. -/
def isInvalidArgument : Error → Bool
  | emptyArgumentList _ | invalidArgument _ => true
  | unreadableConfig _ => false

end Error

end Gremlin
