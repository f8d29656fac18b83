import SnippetKernel.Number.Double

/-! What the kernel answers to each kind of request. -/
namespace SnippetKernel

/-- What running a piece of code did. -/
structure ExecuteResult where
  success : Bool
  stdout : String
  stderr : String
  /-- The traceback of an uncaught exception. -/
  error : Option String
  deriving DecidableEq

/-- A binding, as it is shown to a caller. -/
structure VariableInfo where
  name : String
  typeName : String
  sizeBytes : UInt64
  /-- The size in words. -/
  size : String
  preview : String
  deriving DecidableEq

structure InspectResult where
  success : Bool
  count : UInt64
  bindings : List VariableInfo
  deriving DecidableEq

structure ResetResult where
  success : Bool
  message : String
  deriving DecidableEq

structure StatusResult where
  success : Bool
  uptimeSeconds : Double
  uptimeHuman : String
  variableCount : UInt64
  /-- Missing when the memory in use is not known. -/
  memoryUsageBytes : Option UInt64
  memoryUsage : String
  deriving DecidableEq

end SnippetKernel
