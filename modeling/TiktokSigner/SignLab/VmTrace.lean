import Mathlib.Data.Finset.Defs

/-!
# Sanitized VM traces

The part of a `VmTraceReport` that the subgraph extraction reads. A trace
has many more fields; none of them reaches a subgraph document.

`usize` values and `u32` entries are natural numbers.
-/

namespace TiktokSigner.SignLab

def vmTraceVersion : Nat := 2

inductive TraceProduct where
  | frontier
  | fetch
deriving DecidableEq

/-- The `snake_case` name that serde writes. -/
def TraceProduct.name : TraceProduct → String
  | .frontier => "frontier"
  | .fetch => "fetch"

structure ValueDigest where
  sha256 : String
  bytes : Nat
deriving DecidableEq

structure VmHelperReads where
  n : Nat
  j : Nat
  x : Nat
deriving DecidableEq

structure VmOpcodeCatalogEntry where
  helperReads : VmHelperReads
  callsVm : Bool
  readsWindow : Bool
  readsDocument : Bool
  readsStorage : Bool
  readsCrypto : Bool
  readsFetch : Bool
  handlerTags : List String
deriving DecidableEq

structure VmCallReturn where
  entry : String
  parent : String
  valueType : String
  bytes : Nat
  phase : String
  objectKeys : List String
deriving DecidableEq

structure VmValueShape where
  valueType : String
  bytes : Nat
  valueClass : Option String
  objectKeys : List String
deriving DecidableEq

structure VmCallInput where
  entry : Nat
  args : List VmValueShape
deriving DecidableEq

structure VmOperandValue where
  kind : String
  value : Nat
deriving DecidableEq

structure VmFunctionStep where
  functionEntry : Nat
  opcode : Nat
  width : Nat
  operands : List VmOperandValue
deriving DecidableEq

structure VmRegisterEvent where
  functionEntry : Nat
  op : String
  register : Nat
  valueClass : Option String
deriving DecidableEq

structure VmTrace where
  product : TraceProduct
  clockMs : Nat
  opcodeCatalog : List (String × VmOpcodeCatalogEntry)
  vmCallSequence : List VmCallReturn
  vmCallInputs : List VmCallInput
  functionSteps : List VmFunctionStep
  registerTrace : List VmRegisterEvent
deriving DecidableEq

structure VmTraceReport where
  traceVersion : Nat
  caseId : String
  bundleEndpoint : String
  bundle : ValueDigest
  trace : VmTrace
deriving DecidableEq

end TiktokSigner.SignLab
