import TiktokSigner.Lib.Metering
import TiktokSigner.LiveEvents.Batch

/-!
# The schema budget

Each event may keep `maxSchemaFields` nodes and each batch 65,536. The
decoder charges a node before it pushes it, with one exception: a readable
tag with a value that cannot be read is pushed, at the top level, without a
charge. The event ends there with budget to spare, so its own limit holds;
the batch budget is then one node short per such event.

`objectScript` reads off a payload what its walk asks for, with the cursor
and the descriptors alone, and `object_follows` says that `decode_object`
does just that from every budget. The accounts are those of `Metering`.
-/

namespace TiktokSigner.LiveEvents

open LiveProto Metering

@[simp] theorem fieldsCount_nil : fieldsCount [] = 0 := rfl

@[simp] theorem fieldsCount_append : ∀ fields more : List SchemaField,
    fieldsCount (fields ++ more) = fieldsCount fields + fieldsCount more
  | [], more => by simp
  | ⟨_, _, value, _, _, _⟩ :: fields, more => by
      rw [List.cons_append, fieldsCount, fieldsCount, fieldsCount_append fields more]
      omega

@[simp] theorem fieldsCount_single (number : UInt32) (wire : UInt8) (d : Option FieldSchema)
    (value : SchemaValue) (warning : Bool) :
    fieldsCount [mkField number wire d value warning] = 1 + value.fieldsCount := by
  rw [mkField, fieldsCount, fieldsCount_nil, Nat.add_zero]

/-! ## What a payload asks for -/

section

variable (registry : Registry)

/-- The elements of a packed field, then `next`. -/
def packedScript (d : FieldSchema) (elementWire : UInt8) (b : Bytes) (next : Script) : Script :=
  if b = [] then next
  else
    match _ : Cursor.value elementWire b with
    | (.ok v, rest) =>
        .node (scalar registry v (some d)).2 (packedScript d elementWire rest next)
    | (.error _, _) => .node true next
termination_by b.length
decreasing_by exact (Cursor.value_length (by assumption)).1

abbrev NestedScript := Option MessageSchema → Bytes → Script

/-- A field, then `next`. -/
def fieldScript (nested : Option NestedScript) (d : Option FieldSchema) (raw : RawProtoValue)
    (next : Script) : Script :=
  match packedField d raw with
  | some (d, elementWire, b) => packedScript registry d elementWire b next
  | none =>
      match raw with
      | .bytes b =>
          match d.map FieldSchema.kind with
          | some .string => .node (fromUtf8 b).isNone next
          | some (.message name) =>
              match nested with
              | some script => .nested (script (registry.schemaByName name) b) next
              | none => .node false next
          | some .bytes | none => .node false next
          | some .varint | some .fixed32 | some .fixed64 => .node true next
      | raw => .node (scalar registry raw d).2 next

def loopScript (nested : Option NestedScript) (schema : Option MessageSchema) (payload : Bytes) :
    Script :=
  if payload = [] then .done
  else
    match _ : Cursor.head payload with
    | .unreadableTag => .abort
    | .unreadableValue _ _ => .free
    | .field number _ raw rest =>
        fieldScript registry nested (schema.bind (·.field number)) raw
          (loopScript nested schema rest)
termination_by payload.length
decreasing_by exact Cursor.head_length (by assumption)

def objectScript (depth : Nat) : NestedScript := fun schema payload =>
  let nested : Option NestedScript :=
    if depth < maxSchemaDepth then some (objectScript (depth + 1)) else none
  loopScript registry nested schema payload
termination_by maxSchemaDepth - depth

section

variable {registry} {d : FieldSchema} {elementWire wire : UInt8} {number : UInt32}
variable {nested : Option NestedScript} {schema : Option MessageSchema} {payload rest : Bytes}
variable {raw : RawProtoValue} {next : Script}

@[simp] theorem packedScript_nil : packedScript registry d elementWire [] next = next := by
  rw [packedScript, if_pos rfl]

theorem packedScript_element (hb : payload ≠ [])
    (h : Cursor.value elementWire payload = (.ok raw, rest)) :
    packedScript registry d elementWire payload next =
      .node (scalar registry raw (some d)).2 (packedScript registry d elementWire rest next) := by
  rw [packedScript, if_neg hb]
  split <;> simp_all

theorem packedScript_unreadable {e : ProtoError} (hb : payload ≠ [])
    (h : Cursor.value elementWire payload = (.error e, rest)) :
    packedScript registry d elementWire payload next = .node true next := by
  rw [packedScript, if_neg hb]
  split <;> simp_all

@[simp] theorem loopScript_nil : loopScript registry nested schema [] = .done := by
  rw [loopScript, if_pos rfl]

theorem loopScript_tag (hpayload : payload ≠ []) (h : Cursor.head payload = .unreadableTag) :
    loopScript registry nested schema payload = .abort := by
  rw [loopScript, if_neg hpayload]
  split <;> simp_all

theorem loopScript_value (hpayload : payload ≠ [])
    (h : Cursor.head payload = .unreadableValue number wire) :
    loopScript registry nested schema payload = .free := by
  rw [loopScript, if_neg hpayload]
  split <;> simp_all

theorem loopScript_field (hpayload : payload ≠ [])
    (h : Cursor.head payload = .field number wire raw rest) :
    loopScript registry nested schema payload =
      fieldScript registry nested (schema.bind (·.field number)) raw
        (loopScript registry nested schema rest) := by
  rw [loopScript, if_neg hpayload]
  split <;> simp_all

end

end

/-! ## The decoder follows the script -/

/-- A walk does what its script does from this budget. -/
structure Follows (script : Script) (budget : Nat) (d : Decoded) : Prop where
  fields : fieldsCount d.fields = script.kept budget
  warning : d.warning = script.warns budget
  remaining : d.remaining = budget - script.cost

namespace Follows

variable {inner next : Script} {budget : Nat} {here object rest : Decoded}

/-- Without a budget nothing is kept. -/
theorem zero (script : Script) (h : Follows next 0 rest) : Follows script 0 rest where
  fields := by rw [h.fields, Script.kept_zero, Script.kept_zero]
  warning := by rw [h.warning, Script.warns_zero, Script.warns_zero]
  remaining := by rw [h.remaining, Nat.zero_sub, Nat.zero_sub]

theorem node {warning : Bool} (hbudget : budget ≠ 0) (hfields : fieldsCount here.fields = 1)
    (hwarning : here.warning = warning) (hnext : Follows next (budget - 1) rest) :
    Follows (.node warning next) budget (here.followedBy rest) where
  fields := by
    rw [Script.kept, if_neg hbudget, Decoded.followedBy, fieldsCount_append, hfields, hnext.fields]
  warning := by
    rw [Script.warns, Decoded.followedBy, hwarning, hnext.warning, decide_eq_true hbudget,
      Bool.true_and]
  remaining := by
    rw [Script.cost, Decoded.followedBy, hnext.remaining, Nat.sub_sub]

theorem nested (hbudget : budget ≠ 0)
    (hfields : fieldsCount here.fields =
      1 + if inner.warns (budget - 1) then 0 else inner.kept (budget - 1))
    (hwarning : here.warning = inner.warns (budget - 1))
    (hnext : Follows next (budget - 1 - inner.cost) rest) :
    Follows (.nested inner next) budget (here.followedBy rest) where
  fields := by
    rw [Script.kept, if_neg hbudget, Decoded.followedBy, fieldsCount_append, hfields, hnext.fields]
  warning := by
    rw [Script.warns, Decoded.followedBy, hwarning, hnext.warning]
  remaining := by
    rw [Script.cost, Decoded.followedBy, hnext.remaining]
    omega

end Follows

theorem followedBy_assoc (a b c : Decoded) :
    (a.followedBy b).followedBy c = a.followedBy (b.followedBy c) := by
  simp [Decoded.followedBy, Bool.or_assoc]

theorem scalar_fieldsCount (registry : Registry) (raw : RawProtoValue) (d : Option FieldSchema) :
    (scalar registry raw d).1.fieldsCount = 0 := by
  unfold scalar
  split <;> rfl

section

variable {registry : Registry} {next : Script} {rest : Decoded}

theorem packed_follows {d : FieldSchema} {number : UInt32} {wire elementWire : UInt8} (b : Bytes)
    (budget : Nat)
    (hrest : Follows next
      (decodePacked registry d number wire elementWire b budget).remaining rest) :
    Follows (packedScript registry d elementWire b next) budget
      ((decodePacked registry d number wire elementWire b budget).followedBy rest) := by
  induction b, budget using decodePacked.induct registry d number wire elementWire with
  | case1 budget =>
    rw [decodePacked_nil] at hrest ⊢
    rw [packedScript_nil]
    exact ⟨hrest.fields, hrest.warning, hrest.remaining⟩
  | case2 b hb =>
    rw [decodePacked_out hb] at hrest ⊢
    have hzero := hrest.zero (packedScript registry d elementWire b next)
    exact ⟨hzero.fields, hzero.warning, hzero.remaining⟩
  | case3 b budget hb hbudget v r hread _ _ _ ih =>
    rw [decodePacked_element hb hbudget hread] at hrest ⊢
    rw [packedScript_element hb hread, followedBy_assoc]
    exact Follows.node hbudget (by simp [Decoded.push, scalar_fieldsCount]) rfl (ih hrest)
  | case4 b budget hb hbudget e r hread =>
    rw [decodePacked_unreadable hb hbudget hread] at hrest ⊢
    rw [packedScript_unreadable hb hread]
    exact Follows.node hbudget (by simp [Decoded.unreadable, SchemaValue.fieldsCount]) rfl hrest

/-- Kept or dropped, a nested message was paid for. -/
theorem nested_follows {decode : Nested} {script : NestedScript}
    (hdecode : ∀ schema payload budget,
      Follows (script schema payload) budget (decode schema payload budget))
    {d : Option FieldSchema} {number : UInt32} {wire : UInt8} {name : String} {b : Bytes}
    {budget : Nat} (hbudget : budget ≠ 0)
    (hrest : Follows next
      (decodeNested registry (some decode) d number wire name b (budget - 1)).remaining rest) :
    Follows (.nested (script (registry.schemaByName name) b) next) budget
      ((decodeNested registry (some decode) d number wire name b (budget - 1)).followedBy rest) := by
  obtain ⟨hfields, hwarning, hremaining⟩ := hdecode (registry.schemaByName name) b (budget - 1)
  simp only [decodeNested] at hrest ⊢
  split_ifs at hrest ⊢ with hout hdropped
  · rw [hout] at hrest
    exact Follows.nested hbudget (by simp [hout, Decoded.push, SchemaValue.fieldsCount])
      (by simp [hout, Decoded.push, mkField]) (by rw [hout, Nat.zero_sub]; exact hrest)
  · rw [hremaining] at hrest
    rw [hdropped] at hwarning
    exact Follows.nested hbudget (by simp [← hwarning, Decoded.push, SchemaValue.fieldsCount])
      (by simp [← hwarning, Decoded.push, mkField]) hrest
  · rw [hremaining] at hrest
    rw [Bool.eq_false_iff.mpr hdropped] at hwarning
    exact Follows.nested hbudget
      (by simp [← hwarning, Decoded.push, SchemaValue.fieldsCount, Decoded.toObject, hfields])
      (by simp [← hwarning, Decoded.push, mkField]) hrest

variable {nested : Option Nested} {scripts : Option NestedScript}

/-- A nested decoder follows its script from every budget. -/
abbrev NestedFollows : Option Nested → Option NestedScript → Prop :=
  Option.Rel fun decode script => ∀ schema payload budget,
    Follows (script schema payload) budget (decode schema payload budget)

theorem field_follows (hnested : NestedFollows nested scripts) {d : Option FieldSchema}
    (number : UInt32) (wire : UInt8) {raw : RawProtoValue} {budget : Nat} (hbudget : budget ≠ 0)
    (hrest : Follows next (decodeField registry nested d number wire raw budget).remaining rest) :
    Follows (fieldScript registry scripts d raw next) budget
      ((decodeField registry nested d number wire raw budget).followedBy rest) := by
  unfold decodeField at hrest ⊢
  unfold fieldScript
  cases hpacked : packedField d raw with
  | some packed =>
    simp only [hpacked] at hrest ⊢
    exact packed_follows _ budget hrest
  | none =>
    simp only [hpacked] at hrest ⊢
    have hpush : ∀ (value : SchemaValue) (warning : Bool), value.fieldsCount = 0 →
        Follows next (budget - 1) rest → Follows (.node warning next) budget
          ((Decoded.push (mkField number wire d value warning) (budget - 1)).followedBy rest) :=
      fun value warning hvalue => Follows.node hbudget (by simp [Decoded.push, hvalue]) rfl
    cases raw with
    | bytes b =>
      cases hkind : d.map FieldSchema.kind with
      | none =>
        simp only [hkind] at hrest ⊢
        exact hpush _ _ rfl hrest
      | some kind =>
        cases kind with
        | string =>
          simp only [hkind] at hrest ⊢
          cases htext : fromUtf8 b with
          | none =>
            simp only [htext] at hrest ⊢
            exact hpush _ _ rfl hrest
          | some s =>
            simp only [htext] at hrest ⊢
            exact hpush _ _ rfl hrest
        | message name =>
          simp only [hkind] at hrest ⊢
          cases hnested with
          | none =>
            -- at the depth limit
            have hnode := hpush (.truncated b) false rfl hrest
            exact ⟨hnode.fields, hnode.warning, hnode.remaining⟩
          | some hdecode => exact nested_follows hdecode hbudget hrest
        | varint | fixed32 | fixed64 | bytes =>
          simp only [hkind] at hrest ⊢
          exact hpush _ _ rfl hrest
    | varint v | fixed64 v | fixed32 v => exact hpush _ _ (scalar_fieldsCount _ _ _) hrest

theorem loop_follows (hnested : NestedFollows nested scripts) {schema : Option MessageSchema}
    (payload : Bytes) (budget : Nat) :
    Follows (loopScript registry scripts schema payload) budget
      (decodeLoop registry nested schema payload budget) := by
  induction payload, budget using decodeLoop.induct registry nested schema with
  | case1 budget =>
    rw [decodeLoop_nil, loopScript_nil]
    exact ⟨rfl, rfl, rfl⟩
  | case2 payload hpayload =>
    rw [decodeLoop_out hpayload]
    refine ⟨?_, ?_, ?_⟩ 
    · rw [Script.kept_zero]; rfl
    · rw [Script.warns_zero]
    · rw [Nat.zero_sub]
  | case3 payload budget hpayload hbudget hhead =>
    rw [decodeLoop_tag hpayload hbudget hhead, loopScript_tag hpayload hhead]
    exact ⟨rfl, (decide_eq_true hbudget).symm, rfl⟩
  | case4 payload budget hpayload hbudget number wire hhead =>
    rw [decodeLoop_value hpayload hbudget hhead, loopScript_value hpayload hhead]
    refine ⟨?_, (decide_eq_true hbudget).symm, rfl⟩
    simp [Decoded.unreadable, SchemaValue.fieldsCount, Script.kept, hbudget]
  | case5 payload budget hpayload hbudget number wire raw rest hhead d here ih =>
    rw [decodeLoop_field hpayload hbudget hhead, loopScript_field hpayload hhead]
    have hfield := field_follows hnested number wire hbudget ih
    exact ⟨hfield.fields, hfield.warning, hfield.remaining⟩

end

theorem object_follows (registry : Registry) (depth : Nat) (schema : Option MessageSchema)
    (payload : Bytes) (budget : Nat) :
    Follows (objectScript registry depth schema payload) budget
      (decodeObject registry depth schema payload budget) := by
  rw [decodeObject, objectScript]
  refine loop_follows ?_ payload budget
  split_ifs with hdescend
  · exact .some (object_follows registry (depth + 1))
  · exact .none
termination_by maxSchemaDepth - depth

/-! ## Over a batch -/

/-- What an event asks for. -/
def eventScript (registry : Registry) (method : String) (payload : Bytes) : Script :=
  objectScript registry 0 (registry.schemaForMethod method) (payload.take maxEventBytes)

theorem eventScript_take (registry : Registry) (method : String) (payload : Bytes) :
    eventScript registry method (payload.take maxEventBytes) =
      eventScript registry method payload := by
  rw [eventScript, eventScript, List.take_take, Nat.min_self]

def messageScript (registry : Registry) (message : BaseProtoMessage) : Script :=
  eventScript registry message.method message.payload

/-- The nodes kept of each message. -/
def nodeCounts (registry : Registry) (messages : List BaseProtoMessage) (budget : Nat) : List Nat :=
  keptAll maxSchemaFields (messages.map (messageScript registry)) budget

def SchemaMessage.nodes (schema : SchemaMessage) : Nat := fieldsCount schema.fields

theorem webcastMessage_nodes (registry : Registry) (method : String) (payload : Bytes)
    (budget : Nat) :
    (decodeWebcastMessageBudget registry method payload budget).1.nodes =
        (eventScript registry method payload).kept (min budget maxSchemaFields) ∧
      (decodeWebcastMessageBudget registry method payload budget).2 =
        budgetAfter maxSchemaFields (eventScript registry method payload) budget := by
  obtain ⟨hfields, -, hremaining⟩ := object_follows registry 0 (registry.schemaForMethod method)
    (payload.take maxEventBytes) (min budget maxSchemaFields)
  refine ⟨hfields, ?_⟩
  rw [budgetAfter, eventScript, decodeWebcastMessageBudget, hremaining]
  omega

section

variable {Event Error : Type} {registry : Registry} {generated : Generated Event Error}

theorem decodeMessage_nodes (message : BaseProtoMessage) (budgets : Budgets) :
    (decodeMessage registry generated message budgets).1.schema.nodes =
        (messageScript registry message).kept (min budgets.schema maxSchemaFields) ∧
      (decodeMessage registry generated message budgets).2.schema =
        budgetAfter maxSchemaFields (messageScript registry message) budgets.schema := by
  obtain ⟨hnodes, hbudget⟩ := webcastMessage_nodes registry message.method
    (message.payload.take maxEventBytes) budgets.schema
  rw [eventScript_take] at hnodes hbudget
  exact ⟨hnodes, hbudget⟩

theorem decodeMessages_nodes : ∀ (messages : List BaseProtoMessage) (budgets : Budgets),
    (decodeMessages registry generated messages budgets).map (·.schema.nodes) =
      nodeCounts registry messages budgets.schema
  | [], _ => rfl
  | message :: messages, budgets => by
      obtain ⟨hnodes, hbudget⟩ := @decodeMessage_nodes _ _ registry generated message budgets
      rw [decodeMessages_cons, List.map_cons, decodeMessages_nodes messages, hnodes, hbudget]
      rfl

def SelectedEvent.nodes (event : SelectedEvent Event) : Option Nat :=
  event.schema.map SchemaMessage.nodes

theorem selectMessage_nodes {mode : DecodeMode} (hmode : mode = .full ∨ mode = .schema)
    (message : BaseProtoMessage) (budgets : Budgets) :
    (selectMessage registry generated mode message budgets).1.nodes =
        some ((messageScript registry message).kept (min budgets.schema maxSchemaFields)) ∧
      (selectMessage registry generated mode message budgets).2.schema =
        budgetAfter maxSchemaFields (messageScript registry message) budgets.schema := by
  obtain ⟨hnodes, hbudget⟩ := webcastMessage_nodes registry message.method
    (message.payload.take maxEventBytes) budgets.schema
  rw [eventScript_take] at hnodes hbudget
  simp only [selectMessage, if_pos hmode]
  exact ⟨congrArg some hnodes, hbudget⟩

theorem selectMessages_nodes {mode : DecodeMode} (hmode : mode = .full ∨ mode = .schema) :
    ∀ (messages : List BaseProtoMessage) (budgets : Budgets),
      (selectMessages registry generated mode messages budgets).filterMap SelectedEvent.nodes =
        nodeCounts registry messages budgets.schema
  | [], _ => rfl
  | message :: messages, budgets => by
      obtain ⟨hnodes, hbudget⟩ :=
        @selectMessage_nodes _ _ registry generated mode hmode message budgets
      rw [selectMessages_cons, List.filterMap_cons_some hnodes, selectMessages_nodes hmode messages,
        hbudget]
      rfl

/-- The other modes keep no schema. -/
theorem selectMessages_no_nodes {mode : DecodeMode} (hmode : ¬(mode = .full ∨ mode = .schema)) :
    ∀ (messages : List BaseProtoMessage) (budgets : Budgets),
      (selectMessages registry generated mode messages budgets).filterMap SelectedEvent.nodes = []
  | [], _ => rfl
  | message :: messages, budgets => by
      have hnone : (selectMessage registry generated mode message budgets).1.nodes = none := by
        simp [selectMessage, hmode, SelectedEvent.nodes]
      rw [selectMessages_cons, List.filterMap_cons_none hnone,
        selectMessages_no_nodes hmode messages]

/-! ## The limits -/

def maxBatchNodes : Nat := 65536

/-- Nodes kept of each event, within the limit of an event and of a batch. -/
structure WithinLimits (counts : List Nat) : Prop where
  each : ∀ count ∈ counts, count ≤ maxSchemaFields
  total : counts.sum ≤ maxBatchNodes

/-- Both entry points keep the limits on a payload. -/
structure SchemaBudgetHolds (registry : Registry) (generated : Generated Event Error)
    (payload : Bytes) : Prop where
  batch : ∀ batch, decodeBatch registry generated payload = .ok batch →
    WithinLimits (batch.events.map (·.schema.nodes))
  selected : ∀ mode batch, decodeBatchWithMode registry generated payload mode = .ok batch →
    WithinLimits (batch.events.filterMap SelectedEvent.nodes)

/-- What the messages of a batch ask for, on the batch's budget. -/
def batchAccount (registry : Registry) (messages : List BaseProtoMessage) : Account :=
  account maxSchemaFields (messages.map (messageScript registry)) maxBatchNodes

/-- In a batch that is accepted, the events whose top level ends in a value
that cannot be read are at most what is left of the budget and what was
spent inside nested messages that warn. -/
def UnpaidCovered (registry : Registry) (generated : Generated Event Error) (payload : Bytes) :
    Prop :=
  ∀ result, checkBatch payload = (.ok () : Except (EventError Error) Unit) →
    generated.decodeEventBatch payload = .ok result →
      (batchAccount registry result.messages).unpaid ≤
        (batchAccount registry result.messages).lost + (batchAccount registry result.messages).left

theorem withinLimits_iff (messages : List BaseProtoMessage) :
    WithinLimits (nodeCounts registry messages maxBatchNodes) ↔
      (batchAccount registry messages).unpaid ≤
        (batchAccount registry messages).lost + (batchAccount registry messages).left := by
  have hsum := keptAll_sum_le_iff maxSchemaFields (messages.map (messageScript registry))
    maxBatchNodes
  constructor
  · rintro ⟨-, htotal⟩
    exact hsum.mp htotal
  · intro hcovered
    exact ⟨keptAll_le maxSchemaFields _ maxBatchNodes, hsum.mpr hcovered⟩

/-- A batch that spends its budget, loses nothing and ends one event in a
half-read field. -/
theorem nodeCounts_overdrawn {registry : Registry} {messages : List BaseProtoMessage}
    (haccount : batchAccount registry messages = ⟨1, 0, 0⟩) :
    (nodeCounts registry messages maxBatchNodes).sum = maxBatchNodes + 1 := by
  have hsum := keptAll_account maxSchemaFields (messages.map (messageScript registry))
    maxBatchNodes
  rw [← batchAccount, haccount] at hsum
  exact hsum

theorem schema_budget_iff (registry : Registry) (generated : Generated Event Error)
    (payload : Bytes) :
    SchemaBudgetHolds registry generated payload ↔ UnpaidCovered registry generated payload := by
  constructor
  · intro hholds result hcheck hdecode
    have hbatch := hholds.batch _ (decodeBatch_eq_ok.mpr ⟨hcheck, result, hdecode, rfl⟩)
    rw [decodeMessages_nodes] at hbatch
    exact (withinLimits_iff result.messages).mp hbatch
  · intro hcovered
    refine ⟨fun batch hbatch => ?_, fun mode batch hbatch => ?_⟩
    · obtain ⟨hcheck, result, hdecode, rfl⟩ := decodeBatch_eq_ok.mp hbatch
      rw [decodeMessages_nodes]
      exact (withinLimits_iff result.messages).mpr (hcovered result hcheck hdecode)
    · obtain ⟨hcheck, result, hdecode, rfl⟩ := decodeBatchWithMode_eq_ok.mp hbatch
      by_cases hmode : mode = .full ∨ mode = .schema
      · rw [selectMessages_nodes hmode]
        exact (withinLimits_iff result.messages).mpr (hcovered result hcheck hdecode)
      · rw [selectMessages_no_nodes hmode]
        exact ⟨by simp, Nat.zero_le _⟩

end

/-! ## One node too many -/

/-- So many fields of one byte each. -/
def ones : Nat → Bytes
  | 0 => []
  | n + 1 => 8 :: 1 :: ones n

theorem ones_length : ∀ n, (ones n).length = 2 * n
  | 0 => rfl
  | n + 1 => by
      simp only [ones, List.length_cons, ones_length n]
      omega

/-- So many nodes and no warning. -/
def nodes : Nat → Script
  | 0 => .done
  | n + 1 => .node false (nodes n)

theorem nodes_cost : ∀ n, (nodes n).cost = n
  | 0 => rfl
  | n + 1 => by rw [nodes, Script.cost, nodes_cost n, Nat.add_comm]

theorem nodes_lost : ∀ n r, (nodes n).lost r = 0
  | 0, _ => rfl
  | n + 1, r => by rw [nodes, Script.lost, nodes_lost n]

theorem nodes_unpaid : ∀ n r, (nodes n).unpaid r = 0
  | 0, _ => rfl
  | n + 1, r => by rw [nodes, Script.unpaid_node, nodes_unpaid n]

theorem ones_script (registry : Registry) (nested : Option NestedScript) :
    ∀ n, loopScript registry nested none (ones n) = nodes n
  | 0 => loopScript_nil
  | n + 1 => by
      have hhead : Cursor.head (8 :: 1 :: ones n) = .field 1 0 (.varint 1) (ones n) := rfl
      rw [ones, loopScript_field (List.cons_ne_nil _ _) hhead, ones_script registry nested n]
      rfl

theorem account_full (cap : Nat) : ∀ k,
    account cap (List.replicate k (nodes cap)) (k * cap) = ⟨0, 0, 0⟩
  | 0 => by simp [account]
  | k + 1 => by
      have hafter : budgetAfter cap (nodes cap) ((k + 1) * cap) = k * cap := by
        rw [budgetAfter, nodes_cost, Nat.succ_mul]
        omega
      rw [List.replicate_succ, account, hafter, account_full cap k]
      simp [nodes_unpaid, nodes_lost]

/-- A batch with a message for each payload. -/
def batchBytes (payloads : List Bytes) : Bytes :=
  wireBytes (payloads.map fun p => (1, .bytes (wireBytes [(2, .bytes p)])))

def batchResult (payloads : List Bytes) : ProtoMessageFetchResult :=
  { messages := payloads.map fun p => ⟨"", p, 0, false⟩ }

theorem bytesField_length_le (n : UInt32) (b : Bytes) :
    (fieldBytes (n, .bytes b)).length ≤ b.length + 20 := by
  have hn := n.toNat_lt
  have htag : (Base128.encode (2 + 8 * n.toNat)).length ≤ 10 :=
    Base128.encode_length_le 9 (by omega)
  have hlen : (Base128.encode (b.length % 2 ^ 64)).length ≤ 10 :=
    Base128.encode_length_le 9 (by omega)
  simp only [fieldBytes, List.length_append]
  omega

theorem batchBytes_length_le : ∀ payloads : List Bytes,
    (batchBytes payloads).length ≤ (payloads.map fun p => p.length + 40).sum
  | [] => Nat.le_refl _
  | p :: payloads => by
      have hrest := batchBytes_length_le payloads
      have hmessage := bytesField_length_le 1 (wireBytes [(2, .bytes p)])
      have hpayload := bytesField_length_le 2 p
      have hsingle : wireBytes [(2, .bytes p)] = fieldBytes (2, .bytes p) := by simp [wireBytes]
      rw [batchBytes] at hrest
      rw [← hsingle] at hpayload
      rw [batchBytes, List.map_cons, wireBytes, List.flatMap_cons, ← wireBytes, List.length_append,
        List.map_cons, List.sum_cons]
      omega

theorem countMessages_read {Error : Type} : ∀ (fields : List WireField) (count : Nat),
    count + fields.length ≤ maxBatchMessages →
      (countMessages count (fields.map .ok) : Except (EventError Error) Unit) = .ok ()
  | [], _, _ => rfl
  | (number, _) :: fields, count, h => by
      rw [List.length_cons] at h
      rw [List.map_cons, countMessages]
      split_ifs with hnumber hover
      · omega
      · exact countMessages_read fields (count + 1) (by omega)
      · exact countMessages_read fields count (by omega)

theorem checkBatch_batchBytes {Error : Type} {payloads : List Bytes}
    (hcount : payloads.length ≤ maxBatchMessages)
    (hlen : (batchBytes payloads).length ≤ maxBatchBytes) :
    checkBatch (batchBytes payloads) = (.ok () : Except (EventError Error) Unit) := by
  have hwritten : ∀ f ∈ payloads.map fun p => ((1 : UInt32), WireValue.bytes
      (wireBytes [(2, .bytes p)])), Written f := by
    refine written_of_length (Nat.lt_of_le_of_lt hlen (by decide)) fun f hf => ?_
    obtain ⟨p, -, rfl⟩ := List.mem_map.mp hf
    exact Or.inl rfl
  rw [checkBatch, if_neg (Nat.not_lt.mpr hlen), batchBytes, Reader.items_wireBytes hwritten]
  exact countMessages_read _ 0 (by simpa using hcount)

/-- A half-read field alone, then sixteen full events. -/
def crowded : List Bytes := [8] :: List.replicate 16 (ones maxSchemaFields)

theorem crowded_account : batchAccount ⟨[], []⟩ (batchResult crowded).messages = ⟨1, 0, 0⟩ := by
  have hhalf : messageScript ⟨[], []⟩ ⟨"", [8], 0, false⟩ = .free := by
    have hhead : Cursor.head [8] = .unreadableValue 1 0 := rfl
    rw [messageScript, eventScript, objectScript]
    exact loopScript_value (List.cons_ne_nil _ _) hhead
  have hfull : messageScript ⟨[], []⟩ ⟨"", ones maxSchemaFields, 0, false⟩ =
      nodes maxSchemaFields := by
    rw [messageScript, eventScript, List.take_of_length_le (by rw [ones_length]; decide),
      objectScript]
    exact ones_script _ _ _
  have hbudget : budgetAfter maxSchemaFields .free maxBatchNodes = 16 * maxSchemaFields := rfl
  rw [batchAccount, batchResult, crowded]
  simp only [List.map_cons, List.map_replicate, hhalf, hfull, account, hbudget,
    account_full maxSchemaFields 16]
  rfl

/-- 65,537 nodes. -/
theorem half_read_field_overdraws : ∃ batch,
    decodeBatch ⟨[], []⟩ (knowsBatch (batchBytes crowded) (batchResult crowded))
        (batchBytes crowded) = .ok batch ∧
      (batch.events.map (·.schema.nodes)).sum = maxBatchNodes + 1 := by
  have hlen : (batchBytes crowded).length ≤ maxBatchBytes := by
    refine Nat.le_trans (batchBytes_length_le crowded) ?_
    rw [crowded, List.map_cons, List.map_replicate, ones_length]
    decide
  refine ⟨_, decodeBatch_eq_ok.mpr ⟨checkBatch_batchBytes (by decide) hlen, _,
    knowsBatch_decodes _ _, rfl⟩, ?_⟩
  rw [decodeMessages_nodes]
  exact nodeCounts_overdrawn crowded_account

end TiktokSigner.LiveEvents
