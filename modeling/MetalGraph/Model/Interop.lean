import MetalGraph.Model.Patch

set_option autoImplicit false

/- The diagnostics of the Python adapter and the checks on what it imports. -/
namespace MetalGraph

structure InteropDiagnostic where
  path : String
  source : String
  reason : String
  requiresSynchronization : Bool
  isZeroCopy : Bool
  isOptional : Bool
  message : String := ""
  copyFallbackAvailable : Bool := false
  synchronization : String := ""
  resourceRetention : String := ""
  requestedMode : String := ""
  selectedMode : String := ""
  sharedStorageVerified : Bool := false
  copyBytes : Nat := 0
  fallbackReason : String := ""
deriving DecidableEq, Repr

/-- A `MetalGraphError`; `detail` is what the exception prints. -/
structure MetalGraphError where
  status : MgStatus
  stage : MgErrorStage
  nodeId : MgNodeId
  detail : String
  backendMessage : String
deriving DecidableEq, Repr

/-- What a Python call may end with. `wrongClass` is an argument of a class that the
signature does not name, and `undefined` is a use of freed memory by the library. -/
inductive PyError where
  | metalGraph (error : MetalGraphError)
  | unsupportedWorkflow (error : MetalGraphError) (diagnostic : InteropDiagnostic)
  | valueError (message : String)
  | wrongClass
  | undefined
deriving DecidableEq, Repr

/-! ### Plan diagnostics -/

structure GraphExecDiagnostics where
  icbAvailable : Bool
  icbEnabled : Bool
  icbGroupsPlanned : Nat
  icbGroupsUsed : Nat
  icbGroupsFallback : Nat
  icbLastFallbackReason : String
deriving DecidableEq, Repr

def icbFallbackReasonName : MgIcbFallbackReason → String
  | .none => "none"
  | .disabled => "disabled"
  | .unsupported => "unsupported"
  | .ineligibleNode => "ineligible_node"
  | .unknownResourceAccess => "unknown_resource_access"
  | .patchableField => "patchable_field"
  | .backendError => "backend_error"

def MgGraphExecDiagnostics.view (raw : MgGraphExecDiagnostics) : GraphExecDiagnostics where
  icbAvailable := raw.icbAvailable
  icbEnabled := raw.icbEnabled
  icbGroupsPlanned := raw.icbGroupsPlanned.toNat
  icbGroupsUsed := raw.icbGroupsUsed.toNat
  icbGroupsFallback := raw.icbGroupsFallback.toNat
  icbLastFallbackReason := icbFallbackReasonName raw.icbLastFallbackReason

/-! ### Sources -/

/-- An object of the client, as the buffer protocol shows it; `view` is `none` for one that
does not have it. -/
structure PyView where
  bytes : List UInt8
  contiguous : Bool
  cContiguous : Bool
deriving DecidableEq, Repr

structure PySource where
  view : Option PyView
deriving DecidableEq, Repr

def zeroCopyUnsupportedReason : String :=
  "MLX array zero-copy import is unsupported because the public MLX Python API exposes " ++
  "array metadata and Python buffer/DLPack conversion, but not a stable Metal buffer, byte " ++
  "offset, byte range, or device identity that Metal Graph can retain and validate safely."

def mlxZeroCopyDiagnostic : InteropDiagnostic where
  path := "unsupported"
  source := "mlx"
  reason := "unsupported_public_api"
  requiresSynchronization := false
  isZeroCopy := false
  isOptional := true
  message := zeroCopyUnsupportedReason
  copyFallbackAvailable := true
  synchronization :=
    "no zero-copy synchronization contract applies because shared storage is not available"
  resourceRetention := "future zero-copy support must retain the source MLX array while the " ++
    "buffer wrapper exists"
  requestedMode := "zero_copy"
  selectedMode := "reject"
  fallbackReason := "unsupported_public_api"

def mlxAbsentDiagnostic : InteropDiagnostic where
  path := "skipped"
  source := "mlx"
  reason := "missing_optional_dependency"
  requiresSynchronization := false
  isZeroCopy := false
  isOptional := true
  message := "MLX is not installed; zero-copy MLX import cannot be evaluated."
  copyFallbackAvailable := true
  requestedMode := "zero_copy"
  selectedMode := "skipped"
  fallbackReason := "missing_optional_dependency"

def explicitCopyDiagnostic (copyBytes : Nat) : InteropDiagnostic where
  path := "copy"
  source := "python"
  reason := "explicit_copy_requested"
  requiresSynchronization := false
  isZeroCopy := false
  isOptional := true
  message := "mode='copy' creates independent Metal Graph-owned storage and does not share " ++
    "MLX-visible memory."
  copyFallbackAvailable := true
  synchronization := "no MLX-visible result is promised; synchronize Metal Graph launches " ++
    "before reading through Metal Graph host-visible buffers"
  resourceRetention := "the Python Buffer wrapper retains the source owner; launches retain " ++
    "bound mg_buffer_t resources"
  requestedMode := "copy"
  selectedMode := "copy"
  copyBytes := copyBytes

def rejectDiagnostic (reason requestedMode : String) : InteropDiagnostic where
  path := "reject"
  source := "python"
  reason := reason
  requiresSynchronization := false
  isZeroCopy := false
  isOptional := true
  message := reason
  requestedMode := requestedMode
  selectedMode := "reject"
  fallbackReason := reason

/-- An error that the adapter raises itself, without a stage or a node. -/
def adapterError (status : MgStatus) (message : String) : MetalGraphError :=
  ⟨status, .none, mgNodeIdInvalid, message, ""⟩

def memoryviewForExplicitCopy (array : PySource) : Except PyError (List UInt8) := do
  match array.view with
  | none => .error (.unsupportedWorkflow
      (adapterError .unsupported ("mode='copy' requires an MLX array or another object " ++
        "exposing the Python buffer protocol"))
      (rejectDiagnostic "unsupported_object_type" "copy"))
  | some view =>
    demand (view.bytes ≠ []) (.metalGraph
      (adapterError .invalidArgument "mode='copy' requires a non-empty source buffer"))
    demand (view.contiguous = true ∧ view.cContiguous = true) (.unsupportedWorkflow
      (adapterError .unsupported "mode='copy' requires a contiguous source buffer")
      (rejectDiagnostic "unsupported_layout" "copy"))
    .ok view.bytes

structure MlxImportSupport where
  supported : Bool
  mode : String
  sharedStorage : Bool
  reason : String
  status : String
  diagnostic : Option InteropDiagnostic
deriving DecidableEq, Repr

def badMode : PyError := .valueError "mode must be 'zero_copy' or 'copy'"

/-- The support that a `MetalGraphError` of the source check stands for. -/
def rejectedImport (mode : String) : PyError → Except PyError MlxImportSupport
  | .metalGraph error => .ok ⟨false, mode, false, error.detail, "reject", none⟩
  | .unsupportedWorkflow error diagnostic =>
    .ok ⟨false, mode, false, error.detail, "reject", some diagnostic⟩
  | other => .error other

def canImportMlxArray (mlxAvailable : Bool) (array : PySource) (mode : String) :
    Except PyError MlxImportSupport :=
  if mode = "zero_copy" then
    if mlxAvailable then
      .ok ⟨false, mode, false, zeroCopyUnsupportedReason, "unsupported_public_api",
        some mlxZeroCopyDiagnostic⟩
    else
      .ok ⟨false, mode, false, "MLX is not installed; zero-copy MLX import cannot be evaluated.",
        "skipped_environment", some mlxAbsentDiagnostic⟩
  else if mode = "copy" then
    match memoryviewForExplicitCopy array with
    | .error reason => rejectedImport mode reason
    | .ok source =>
      .ok ⟨true, mode, false,
        "explicit copy import is available through the Python buffer protocol", "explicit_copy",
        some (explicitCopyDiagnostic source.length)⟩
  else .error badMode

end MetalGraph
