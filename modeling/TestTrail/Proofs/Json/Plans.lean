/-
Plans, written and read again.

Two things are not simply read as they were written. An operation without a word about replays is read with the default
of its kind, and written with it (`Operation.replay_of_silent`). And a number that is no number has no JSON form: an
argument is read back when the floating point numbers in it are finite (`Value.ofJson?_toJson`), and those of a plan
are, whether it was read from a value or from a text (`Plan.finite_of_read`).

So a plan that was read is read back as it is (`Plan.plan_survives`).
-/
import TestTrail.Plan.Json
import TestTrail.Proofs.Json.Numbers
import TestTrail.Proofs.Json.Trees

namespace TestTrail

open TestTrail.Json (row fields?_row tagged?_row optional_map optional_getD_null toList?_map)

/-! ## Arguments -/

namespace Value

mutual

/-- the floating point numbers in a value are finite -/
def finite : Value → Bool
  | float x => x.isFinite
  | list items => allFinite items
  | _ => true

def allFinite : List Value → Bool
  | [] => true
  | v :: vs => v.finite && allFinite vs

end

mutual

theorem ofJson?_toJson (v : Value) (h : v.finite = true) : ofJson? v.toJson = some v := by
  cases v with
  | null => rfl
  | bool b => rfl
  | int i =>
    rw [toJson, ofJson?, ofWhole, Json.toInt64?_int]
  | float x =>
    rw [finite] at h
    rw [toJson, if_pos h, ofJson?]
  | text s => rfl
  | list items =>
    rw [finite] at h
    rw [toJson, ofJson?, ofJsonItems?_toJsonItems items h]
    rfl

theorem ofJsonItems?_toJsonItems (vs : List Value) (h : allFinite vs = true) :
    ofJsonItems? (toJsonItems vs) = some vs := by
  cases vs with
  | nil => rfl
  | cons v vs =>
    rw [allFinite, Bool.and_eq_true] at h
    rw [toJsonItems, ofJsonItems?, ofJson?_toJson v h.1, ofJsonItems?_toJsonItems vs h.2]

end

theorem finite_ofWhole {i : Int} (h : -9223372036854775808 ≤ i ∧ i < 18446744073709551616) :
    (ofWhole i).finite = true := by
  unfold ofWhole
  split
  · rfl
  · exact Decimal.Binary64.isFinite_ofInt (by omega)

mutual

theorem finite_of_ofJson? (j : Json) (hj : j.proper = true) {v : Value} (h : ofJson? j = some v) : v.finite = true := by
  cases j with
  | int i =>
    rw [← Option.some.inj h]
    exact finite_ofWhole (of_decide_eq_true hj)
  | float x =>
    rw [← Option.some.inj h]
    exact hj
  | arr items =>
    obtain ⟨vs, hvs, rfl⟩ := Option.map_eq_some_iff.1 h
    exact allFinite_of_ofJsonItems? items hj hvs
  | null | bool | str =>
    rw [← Option.some.inj h]
    rfl
  | obj | unreadable => cases h

theorem allFinite_of_ofJsonItems? (items : List Json) (hitems : Json.properItems items = true) {vs : List Value}
    (h : ofJsonItems? items = some vs) : allFinite vs = true := by
  cases items with
  | nil =>
    cases h
    rfl
  | cons j js =>
    rw [Json.properItems, Bool.and_eq_true] at hitems
    rw [ofJsonItems?] at h
    split at h
    · rename_i v vs hv hvs
      rw [← Option.some.inj h, allFinite, finite_of_ofJson? j hitems.1 hv, allFinite_of_ofJsonItems? js hitems.2 hvs]
      rfl
    · cases h

end

end Value

theorem Arg.ofJson?_toJson {a : Arg} (h : a.value.finite = true) : ofJson? a.toJson = some a := by
  have hfields : a.toJson = .obj (row [("name", some (.str a.name)), ("value", some a.value.toJson)]) := rfl
  rw [hfields, ofJson?, fields?_row (by rfl) (by simp)]
  simp [Value.ofJson?_toJson a.value h]

theorem Arg.finite_of_ofJson? {j : Json} (hj : j.proper = true) {a : Arg} (h : ofJson? j = some a) :
    a.value.finite = true := by
  unfold ofJson? at h
  split at h
  · rename_i name value hfields
    simp only [Option.bind_eq_bind, Option.bind_eq_some_iff, Json.required] at h
    obtain ⟨n, -, v, ⟨x, hx, hread⟩, heq⟩ := h
    rw [← Option.some.inj heq]
    exact Value.finite_of_ofJson? x (Json.proper_of_fields? hj hfields (by simp [hx])) hread
  · cases h

/-! ## Operations -/

@[simp] theorem OperationKind.ofJson?_tag (k : OperationKind) : ofJson? (.str k.tag) = some k := by
  cases k <;> rfl

namespace Operation

def fields (op : Operation) : List (String × Option Json) :=
  [("id", some (.str op.id)), ("kind", some (.str op.kind.tag)), ("template", some (.ofOption op.template)),
    ("scenario_text", some (.ofOption op.scenarioText)), ("masked_params", some (.strings op.maskedParams)),
    ("root_cause", some op.rootCause.toJson), ("root_cause_details", some (.ofOption op.rootCauseDetails)),
    ("replay", some (.bool op.replay))]

theorem ofJson?_toJson (op : Operation) : ofJson? op.toJson = some op := by
  have hfields : op.toJson = .obj (row op.fields) := rfl
  have hreplay : Json.optional (some (.bool op.replay)) Json.toBool? = some (some op.replay) := rfl
  rw [hfields, ofJson?, fields?_row (by rfl) (by simp [fieldNames])]
  simp [fields, hreplay, ofKind]

/-- nothing is said about replays: there is no such member, or no item in its place, or null -/
def Silent : Json → Prop
  | .obj members => ∀ m ∈ members, m.1 = "replay" → m.2 = .null
  | .arr items => ∀ i, items[7]? = some i → i = .null
  | _ => True

theorem eq_null_of_silent {j x : Json} {fields : List (Option Json)} (hsilent : Silent j)
    (h : j.fields? fieldNames = some fields) (hx : fields[7]? = some (some x)) : x = .null := by
  cases j with
  | obj members =>
    have hmembers : fieldNames.mapM (Json.single? members) = some fields := h
    have hreplay := Json.getElem?_mapM hmembers (i := 7) hx
    obtain ⟨name, hname, hread⟩ := hreplay
    obtain rfl : "replay" = name := Option.some.inj hname
    exact hsilent ("replay", x) (Json.mem_of_single? hread) rfl
  | arr items =>
    rw [Json.fields?] at h
    rw [← Option.some.inj (Option.ite_none_right_eq_some.1 h).2, List.getElem?_append] at hx
    split at hx
    · rw [List.getElem?_map] at hx
      obtain ⟨i, hi, heq⟩ := Option.map_eq_some_iff.1 hx
      rw [← Option.some.inj heq]
      exact hsilent i hi
    · -- behind the last item nothing was found
      rw [List.getElem?_replicate] at hx
      split at hx
      · cases Option.some.inj hx
      · cases hx
  | null | bool | int | float | str | unreadable => cases h

/-- **An operation that says nothing about replays is replayed as its kind is.** -/
theorem replay_of_silent {j : Json} {op : Operation} (h : ofJson? j = some op) (hsilent : Silent j) :
    op.replay = (ofKind op.id op.kind).replay := by
  unfold ofJson? at h
  split at h
  · rename_i id kind template scenarioText maskedParams rootCause rootCauseDetails replay hfields
    have hnone : Json.optional replay Json.toBool? = some none := by
      cases hreplay : replay with
      | none => rfl
      | some x =>
        rw [hreplay] at hfields
        rw [eq_null_of_silent hsilent hfields rfl]
        rfl
    rw [hnone] at h
    simp only [Option.bind_eq_bind, Option.bind_eq_some_iff, Option.bind_some] at h
    obtain ⟨i, -, k, -, t, -, s, -, m, -, c, -, d, -, heq⟩ := h
    rw [← Option.some.inj heq]
    rfl
  · cases h

end Operation

/-! ## Drivers -/

@[simp] theorem toUInt32?_ofCount (n : UInt32) : Json.toUInt32? (.ofCount n) = some n := Json.toUInt32?_int n

@[simp] theorem FailurePlan.ofJson?_toJson (p : FailurePlan) : ofJson? p.toJson = some p := by
  have htimes : Json.optional (some ((p.times.map Json.ofCount).getD .null)) Json.toUInt32? = some p.times :=
    optional_getD_null toUInt32?_ofCount (fun _ => Json.noConfusion) p.times
  have hattempts : Json.toList? Json.toUInt32? (.arr (p.onAttempts.map Json.ofCount)) = some p.onAttempts :=
    toList?_map p.onAttempts fun n _ => toUInt32?_ofCount n
  have hfields : p.toJson = .obj (row
      [("command", some (.str p.command)), ("times", some ((p.times.map Json.ofCount).getD .null)),
        ("kind", some (.str p.kind)), ("message", some (.ofOption p.message)),
        ("on_attempts", some (.arr (p.onAttempts.map Json.ofCount)))]) := rfl
  rw [hfields, ofJson?, fields?_row (by rfl) (by simp)]
  simp [htimes, hattempts]

@[simp] theorem DriverPlan.ofJson?_toJson (p : DriverPlan) : ofJson? p.toJson = some p := by
  have hlatency : Json.optional (some ((p.latencyMs.map fun n => Json.int (Int.ofNat n)).getD .null)) Json.toNat? =
      some p.latencyMs := optional_getD_null Json.toNat?_int (fun _ => Json.noConfusion) p.latencyMs
  have hfailures : Json.toList? FailurePlan.ofJson? (.arr (p.failures.map FailurePlan.toJson)) = some p.failures :=
    toList?_map p.failures fun f _ => f.ofJson?_toJson
  have hfields : p.toJson = .obj (row
      [("title", some (.ofOption p.title)),
        ("latency_ms", some ((p.latencyMs.map fun n => Json.int (Int.ofNat n)).getD .null)),
        ("failures", some (.arr (p.failures.map FailurePlan.toJson)))]) := rfl
  rw [hfields, ofJson?, fields?_row (by rfl) (by simp)]
  simp only [List.map_cons, List.map_nil, hlatency]
  simp [hfailures]

/-! ## Composites -/

theorem Element.optional_getD_null (e : Option Element) :
    Json.optional (some ((e.map toJson).getD .null)) ofJson? = some e :=
  Json.optional_getD_null ofJson?_toJson (fun _ => Json.noConfusion) e

@[simp] theorem Primitive.ofJson?_toJson (p : Primitive) : ofJson? p.toJson = some p := by
  have hfields : p.toJson = .obj (row
      [("command", some (.str p.command)), ("element", some ((p.element.map Element.toJson).getD .null)),
        ("args", some (.strings p.args))]) := rfl
  rw [hfields, ofJson?, fields?_row (by rfl) (by simp)]
  simp [Element.optional_getD_null]

@[simp] theorem Composite.ofJson?_toJson (c : Composite) : ofJson? c.toJson = some c := by
  have hprimitives : Json.toList? Primitive.ofJson? (.arr (c.primitives.map Primitive.toJson)) = some c.primitives :=
    toList?_map c.primitives fun p _ => p.ofJson?_toJson
  have hfields : c.toJson = .obj (row
      [("id", some (.str c.id)), ("origin", some (.ofOption c.origin)),
        ("primitives", some (.arr (c.primitives.map Primitive.toJson)))]) := rfl
  rw [hfields, ofJson?, fields?_row (by rfl) (by simp)]
  simp [hprimitives]

/-! ## Calls -/

namespace Call

mutual

/-- the values of the arguments of a call and of the calls in it -/
def values : Call → List Value
  | operation target _ children => target.args.map Arg.value ++ valuesIn children
  | _ => []

def valuesIn : List Call → List Value
  | [] => []
  | c :: cs => c.values ++ valuesIn cs

end

theorem mem_valuesIn {cs : List Call} {v : Value} : v ∈ valuesIn cs ↔ ∃ c ∈ cs, v ∈ c.values := by
  induction cs with
  | nil => simp [valuesIn]
  | cons c cs ih => simp [valuesIn, ih]

theorem callsJson_eq (cs : List Call) : callsJson cs = cs.map toJson := by
  induction cs with
  | nil => rfl
  | cons c cs ih => rw [callsJson, ih, List.map_cons]

def tag : Call → String
  | operation _ _ _ => "operation"
  | composites _ => "composites"
  | step _ => "step"
  | message _ _ => "message"
  | secret _ => "secret"
  | fail _ => "fail"

def fields : Call → List (String × Option Json)
  | operation target command children =>
    [("id", some (.str target.operation)), ("origin", some (.ofOption target.origin)),
      ("element", some ((target.element.map Element.toJson).getD .null)),
      ("args", some (.arr (target.args.map Arg.toJson))), ("command", some (.ofOption command)),
      ("children", some (.arr (callsJson children)))]
  | composites batch => [("batch", some (.arr (batch.map Composite.toJson)))]
  | step name => [("name", some (.str name))]
  | message text level => [("text", some (.str text)), ("level", some level.toJson)]
  | secret value => [("value", some (.str value))]
  | fail text => [("message", some (.str text))]

theorem toJson_eq (c : Call) : c.toJson = .obj (("call", .str c.tag) :: row c.fields) := by
  cases c <;> (rw [toJson]; rfl)

theorem tagged?_toJson (nested : Bool) (c : Call) :
    c.toJson.tagged? "call" nested callTags = some (c.tag, .obj (row c.fields)) := by
  rw [toJson_eq]
  exact tagged?_row nested (by cases c <;> simp [fields]) (by cases c <;> simp [tag, callTags])

theorem depth_lt_of_mem_children {target : Invocation} {command : Option String} {children : List Call} {c : Call}
    (h : c ∈ children) : c.toJson.depth < (operation target command children).toJson.depth := by
  have hitem : c.toJson ∈ callsJson children := by
    rw [callsJson_eq]
    exact List.mem_map_of_mem h
  have hmember : ("children", Json.arr (callsJson children)) ∈
      ("call", .str "operation") :: row (operation target command children).fields := by
    simp [fields]
  rw [toJson_eq (operation target command children)]
  exact Json.depth_lt_of_mem_items hmember hitem

theorem operationOfJson?_fields {readChild : Json → Option Call} {target : Invocation} {command : Option String}
    {children : List Call} (hargs : ∀ a ∈ target.args, a.value.finite = true)
    (hchildren : ∀ c ∈ children, readChild c.toJson = some c) :
    operationOfJson? readChild (.obj (row (operation target command children).fields)) =
      some (operation target command children) := by
  have hread : Json.toList? readChild (.arr (callsJson children)) = some children := by
    rw [callsJson_eq]
    exact toList?_map children hchildren
  have hvalues : Json.toList? Arg.ofJson? (.arr (target.args.map Arg.toJson)) = some target.args :=
    toList?_map target.args fun a ha => Arg.ofJson?_toJson (hargs a ha)
  rw [operationOfJson?, fields?_row (by rfl) (by simp)]
  simp [fields, hread, hvalues, Element.optional_getD_null]

theorem compositesOfJson?_fields (batch : List Composite) :
    compositesOfJson? (.obj (row (composites batch).fields)) = some (composites batch) := by
  have hread : Json.toList? Composite.ofJson? (.arr (batch.map Composite.toJson)) = some batch :=
    toList?_map batch fun u _ => u.ofJson?_toJson
  rw [compositesOfJson?, fields?_row (by rfl) (by simp)]
  simp [fields, hread]

theorem messageOfJson?_fields (text : String) (level : Level) :
    messageOfJson? (.obj (row (message text level).fields)) = some (message text level) := by
  rw [messageOfJson?, fields?_row (by rfl) (by simp)]
  simp [fields]

theorem textOfJson?_row (name text : String) :
    textOfJson? name (.obj (row [(name, some (.str text))])) = some text := by
  rw [textOfJson?, fields?_row (by rfl) (by simp)]
  rfl

/-- the induction is on the depth the reader may go, as for nodes -/
theorem ofJsonWithin_toJson {c : Call} {depth : Nat} (nested : Bool) (hdepth : c.toJson.depth ≤ depth)
    (hfinite : ∀ v ∈ c.values, v.finite = true) : ofJsonWithin depth nested c.toJson = some c := by
  induction depth generalizing c nested with
  | zero =>
    rw [toJson_eq, Json.depth] at hdepth
    exact absurd hdepth (Nat.not_succ_le_zero _)
  | succ depth ih =>
    rw [ofJsonWithin, tagged?_toJson]
    cases c with
    | operation target command children =>
      have hargs : ∀ a ∈ target.args, a.value.finite = true := fun a ha =>
        hfinite a.value (List.mem_append_left _ (List.mem_map_of_mem ha))
      have hchildren : ∀ c ∈ children, ofJsonWithin depth true c.toJson = some c := fun c hc =>
        ih true (Nat.le_of_lt_succ (Nat.lt_of_lt_of_le (depth_lt_of_mem_children hc) hdepth)) fun v hv =>
          hfinite v (List.mem_append_right _ (mem_valuesIn.2 ⟨c, hc, hv⟩))
      exact operationOfJson?_fields hargs hchildren
    | composites batch => exact compositesOfJson?_fields batch
    | step name => exact congrArg (Option.map step) (textOfJson?_row "name" name)
    | message text level => exact messageOfJson?_fields text level
    | secret value => exact congrArg (Option.map secret) (textOfJson?_row "value" value)
    | fail text => exact congrArg (Option.map fail) (textOfJson?_row "message" text)

/-- the arguments of a call that was read are finite, given that those of the calls in it are -/
theorem finite_of_operationOfJson? {readChild : Json → Option Call} {j : Json} {c : Call} (hj : j.proper = true)
    (hchild : ∀ i d, i.proper = true → readChild i = some d → ∀ v ∈ d.values, v.finite = true)
    (h : operationOfJson? readChild j = some c) : ∀ v ∈ c.values, v.finite = true := by
  unfold operationOfJson? at h
  split at h
  · rename_i id origin element args command children hfields
    have hproper : ∀ x, some x ∈ [id, origin, element, args, command, children] → x.proper = true :=
      fun x => Json.proper_of_fields? hj hfields
    simp only [Option.bind_eq_bind, Option.bind_eq_some_iff] at h
    obtain ⟨i, -, o, -, e, -, as, has, n, -, cs, hcs, heq⟩ := h
    rw [← Option.some.inj heq]
    intro v hv
    rcases List.mem_append.1 hv with hv | hv
    · obtain ⟨a, ha, rfl⟩ := List.mem_map.1 hv
      obtain ⟨x, hx, hread⟩ := Json.proper_of_mem_orElse (fun x hx => hproper x (by simp [hx])) has ha
      exact Arg.finite_of_ofJson? hx hread
    · obtain ⟨d, hd, hv⟩ := mem_valuesIn.1 hv
      obtain ⟨x, hx, hread⟩ := Json.proper_of_mem_orElse (fun x hx => hproper x (by simp [hx])) hcs hd
      exact hchild x d hx hread v hv
  · cases h

theorem values_of_compositesOfJson? {j : Json} {c : Call} (h : compositesOfJson? j = some c) : c.values = [] := by
  unfold compositesOfJson? at h
  split at h
  · obtain ⟨batch, -, rfl⟩ := Option.map_eq_some_iff.1 h
    rfl
  · cases h

theorem values_of_messageOfJson? {j : Json} {c : Call} (h : messageOfJson? j = some c) : c.values = [] := by
  unfold messageOfJson? at h
  split at h
  · simp only [Option.bind_eq_bind, Option.bind_eq_some_iff] at h
    obtain ⟨t, -, l, -, heq⟩ := h
    rw [← Option.some.inj heq]
    rfl
  · cases h

theorem finite_of_ofJsonWithin {depth : Nat} {nested : Bool} {j : Json} {c : Call} (hj : j.proper = true)
    (h : ofJsonWithin depth nested j = some c) : ∀ v ∈ c.values, v.finite = true := by
  have hnone : ∀ d : Call, d.values = [] → ∀ v ∈ d.values, v.finite = true := by
    intro d hd v hv
    rw [hd] at hv
    cases hv
  induction depth generalizing j c nested with
  | zero => cases h
  | succ depth ih =>
    rw [ofJsonWithin] at h
    split at h
    · rename_i tag fields htagged
      by_cases hoperation : tag = "operation"
      · rw [if_pos hoperation] at h
        exact finite_of_operationOfJson? (Json.proper_of_tagged? hj htagged) (fun i d hi hd => ih hi hd) h
      · -- no other call has arguments
        refine hnone c ?_
        rw [if_neg hoperation] at h
        split at h
        · exact values_of_compositesOfJson? h
        · split at h
          · obtain ⟨t, -, rfl⟩ := Option.map_eq_some_iff.1 h
            rfl
          · split at h
            · exact values_of_messageOfJson? h
            · split at h
              all_goals
                obtain ⟨t, -, rfl⟩ := Option.map_eq_some_iff.1 h
                rfl
    · cases h

end Call

/-! ## Plans -/

namespace PlanTest

theorem ofJsonWith?_toJson {t : PlanTest} (h : ∀ v ∈ Call.valuesIn t.calls, v.finite = true) :
    ofJsonWith? Call.ofJson? t.toJson = some t := by
  have hcalls : Json.toList? Call.ofJson? (.arr (Call.callsJson t.calls)) = some t.calls := by
    rw [Call.callsJson_eq]
    exact toList?_map t.calls fun c hc =>
      Call.ofJsonWithin_toJson false (Nat.le_refl _) fun v hv => h v (Call.mem_valuesIn.2 ⟨c, hc, hv⟩)
  have hfields : t.toJson = .obj (row
      [("name", some (.str t.name)), ("tags", some (.strings t.tags)), ("cucumber", some (.bool t.cucumber)),
        ("driver", some t.driver.toJson), ("calls", some (.arr (Call.callsJson t.calls)))]) := rfl
  rw [hfields, ofJsonWith?, fields?_row (by rfl) (by simp)]
  simp [hcalls]

theorem finite_of_ofJsonWith? {readCall : Json → Option Call} {j : Json} {t : PlanTest} (hj : j.proper = true)
    (hcall : ∀ i c, i.proper = true → readCall i = some c → ∀ v ∈ c.values, v.finite = true)
    (h : ofJsonWith? readCall j = some t) : ∀ v ∈ Call.valuesIn t.calls, v.finite = true := by
  unfold ofJsonWith? at h
  split at h
  · rename_i name tags cucumber driver calls hfields
    simp only [Option.bind_eq_bind, Option.bind_eq_some_iff] at h
    obtain ⟨n, -, ts, -, u, -, d, -, cs, hcs, heq⟩ := h
    obtain ⟨x, hx, hread⟩ := Option.bind_eq_some_iff.1 hcs
    have hproper : x.proper = true := Json.proper_of_fields? hj hfields (by simp [hx])
    rw [← Option.some.inj heq]
    intro v hv
    obtain ⟨c, hc, hv⟩ := Call.mem_valuesIn.1 hv
    obtain ⟨i, hi, hcalled⟩ := Json.proper_of_mem_toList? hproper hread hc
    exact hcall i c hi hcalled v hv
  · cases h

end PlanTest

namespace Plan

/-- the values of all arguments in the calls of a plan -/
def values (p : Plan) : List Value := p.tests.flatMap fun t => Call.valuesIn t.calls

theorem ofJson?_toJson {p : Plan} (h : ∀ v ∈ p.values, v.finite = true) : ofJson? p.toJson = some p := by
  have hoperations : Json.toList? Operation.ofJson? (.arr (p.operations.map Operation.toJson)) = some p.operations :=
    toList?_map p.operations fun op _ => op.ofJson?_toJson
  have htests : Json.toList? (PlanTest.ofJsonWith? Call.ofJson?) (.arr (p.tests.map PlanTest.toJson)) = some p.tests :=
    toList?_map p.tests fun t ht =>
      PlanTest.ofJsonWith?_toJson fun v hv => h v (List.mem_flatMap.2 ⟨t, ht, hv⟩)
  have hfields : p.toJson = .obj (row
      [("context", some (.str p.context)), ("operations", some (.arr (p.operations.map Operation.toJson))),
        ("tests", some (.arr (p.tests.map PlanTest.toJson)))]) := rfl
  rw [hfields, ofJson?, ofJsonWith?, fields?_row (by rfl) (by simp)]
  simp [hoperations, htests]

theorem finite_of_ofJsonWith? {readCall : Json → Option Call} {j : Json} {p : Plan} (hj : j.proper = true)
    (hcall : ∀ i c, i.proper = true → readCall i = some c → ∀ v ∈ c.values, v.finite = true)
    (h : ofJsonWith? readCall j = some p) : ∀ v ∈ p.values, v.finite = true := by
  unfold ofJsonWith? at h
  split at h
  · rename_i context operations tests hfields
    simp only [Option.bind_eq_bind, Option.bind_eq_some_iff] at h
    obtain ⟨x, -, ops, -, ts, hts, heq⟩ := h
    obtain ⟨y, hy, hread⟩ := Option.bind_eq_some_iff.1 hts
    have hproper : y.proper = true := Json.proper_of_fields? hj hfields (by simp [hy])
    rw [← Option.some.inj heq]
    intro v hv
    obtain ⟨t, ht, hv⟩ := List.mem_flatMap.1 hv
    obtain ⟨i, hi, htest⟩ := Json.proper_of_mem_toList? hproper hread ht
    exact PlanTest.finite_of_ofJsonWith? hi hcall htest v hv
  · cases h

/-- a reader of plans has read the plan, from a value or from a text -/
inductive Read (p : Plan) : Prop where
  | value (j : Json) (proper : j.proper = true) (read : ofJson? j = some p)
  | text (text : String) (read : ofText? text = some p)

theorem finite_of_read {p : Plan} (h : p.Read) : ∀ v ∈ p.values, v.finite = true := by
  cases h with
  | value j proper read => exact finite_of_ofJsonWith? proper (fun i c hi hc => Call.finite_of_ofJsonWithin hi hc) read
  | text text read =>
    obtain ⟨j, hj, hread⟩ := Option.bind_eq_some_iff.1 read
    refine finite_of_ofJsonWith? (Json.proper_of_ofText? hj) (fun i c hi hc => ?_) hread
    exact Call.finite_of_ofJsonWithin hi (Option.ite_none_right_eq_some.1 hc).2

/-- **A plan is read back from its JSON value.** Of a plan that was read, from a value or from a text, the value that it
is written as is read as the same plan, whatever its calls and however deep they are. In particular

* an operation that said nothing about replays is replayed as its kind is, and so it is when it has been written and
  read again;
* each argument is read back as the value it was, so a whole number stays whole and a floating point number stays one. -/
theorem plan_survives (p : Plan) (h : p.Read) :
    ofJson? p.toJson = some p ∧
      (∀ j op, Operation.ofJson? j = some op → Operation.Silent j →
        op.replay = (Operation.ofKind op.id op.kind).replay ∧ Operation.ofJson? op.toJson = some op) ∧
      (∀ v ∈ p.values, Value.ofJson? v.toJson = some v) := by
  have hfinite := finite_of_read h
  refine ⟨ofJson?_toJson hfinite, fun j op hop hsilent => ?_, fun v hv => v.ofJson?_toJson (hfinite v hv)⟩
  exact ⟨Operation.replay_of_silent hop hsilent, op.ofJson?_toJson⟩

/-- a test that waits, types and pays; one number is whole, the same is a floating point number, and the last one was
whole before it was read -/
def waiting : Plan :=
  let wait : Invocation :=
    { operation := "wait", args := [⟨"for", .list [.int 1, .float ⟨0x3ff0000000000000⟩, .float ⟨0x43f0000000000000⟩]⟩] }
  let pay : Call := .operation { operation := "pay", element := some { label := "Pay", locator := "#pay" } } none []
  { context := "shop", operations := [.ofKind "pay" .action, .ofKind "wait" .step]
    tests :=
      [{ name := "buy", driver := { failures := [{ command := "pay", times := some 2, kind := "stale" }] }
         calls :=
          [.operation wait none [pay, .composites [{ primitives := [{ command := "type" }] }]], .fail "no receipt"] }] }

/-- the step as it is declared, without a word about replays -/
def waitJson : Json := .arr [.str "wait", .obj [("step", .null)]]

/-- the value it is read from, where most things are left out -/
def waitingJson : Json :=
  let args : Json :=
    .arr [.obj [("name", .str "for"), ("value", .arr [.int 1, .float ⟨0x3ff0000000000000⟩, .int 18446744073709551615])]]
  let pay : Json :=
    .obj [("call", .str "operation"), ("id", .str "pay"), ("element", .arr [.str "Pay", .str "#pay"])]
  let typing : Json :=
    .obj [("call", .str "composites"), ("batch", .arr [.obj [("primitives", .arr [.obj [("command", .str "type")]])]])]
  let wait : Json :=
    .obj [("call", .str "operation"), ("id", .str "wait"), ("args", args), ("children", .arr [pay, typing])]
  .obj
    [("context", .str "shop"),
      ("operations", .arr
        [.obj [("id", .str "pay"), ("kind", .str "action")], waitJson]),
      ("tests", .arr
        [.obj
          [("name", .str "buy"),
            ("driver", .obj
              [("failures", .arr [.obj [("command", .str "pay"), ("times", .int 2), ("kind", .str "stale")]])]),
            ("calls", .arr [wait, .obj [("call", .str "fail"), ("message", .str "no receipt")]])]])]

theorem waiting_survives :
    waiting.Read ∧ ofJson? waiting.toJson = some waiting ∧
      (Operation.ofJson? waitJson = some (.ofKind "wait" .step) ∧
        Operation.ofJson? (Operation.ofKind "wait" .step).toJson = some (.ofKind "wait" .step)) ∧
      waiting.values.length = 1 ∧ ∀ v ∈ waiting.values, Value.ofJson? v.toJson = some v := by
  have hread : waiting.Read := .value waitingJson (by decide) (by rfl)
  have hwait : Operation.ofJson? waitJson = some (.ofKind "wait" .step) := by rfl
  have hsilent : Operation.Silent waitJson := fun i hi => by cases hi
  obtain ⟨hplan, hoperations, hvalues⟩ := plan_survives waiting hread
  exact ⟨hread, hplan, ⟨hwait, (hoperations waitJson _ hwait hsilent).2⟩, rfl, hvalues⟩

end Plan

end TestTrail
