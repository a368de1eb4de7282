/-
Masked arguments stay out of names.

The name of a call shows the values of its arguments, quoted or bare, whole or item by item, next to text of its own. It
is masked twice: with the secrets of the call when it is made up, and with the registered secrets when it is recorded.
What the second masking lets through was in the name before it, so it brings nothing back that the first one took out,
wherever the masks of the two come to lie (`hides_mask_mask`).
-/
import TestTrail.Proofs.Calls.Equations
import TestTrail.Proofs.Text.Masking

namespace TestTrail

open TestTrail.Text

/-- a text in the value, or the text of a truth value or of a number in it, at any depth -/
inductive Value.Shows : Value → String → Prop where
  | bool (b : Bool) : Shows (.bool b) (Value.bool b).display
  | int (i : Int64) : Shows (.int i) (Value.int i).display
  | float (x : Decimal.Binary64) : Shows (.float x) (Value.float x).display
  | text (s : String) : Shows (.text s) s
  | item {v : Value} {items : List Value} {s : String} (hmem : v ∈ items) (h : v.Shows s) : Shows (.list items) s

/-- a text that names may not show: it is registered, or comes with a masked argument -/
def Confidential (op : Operation) (args : List Arg) (registered : List String) (value : String) : Prop :=
  value ∈ registered ∨ ∃ a ∈ args, op.isMasked a.name = true ∧ a.value.Shows value

/-! ## The secrets of a call -/

theorem Value.mem_secretsOfItems {v : Value} {items : List Value} {s : String} (hmem : v ∈ items)
    (hs : s ∈ v.secrets) : s ∈ secretsOfItems items := by
  induction items with
  | nil => cases hmem
  | cons w items ih =>
    rw [secretsOfItems, List.mem_append]
    rcases List.mem_cons.1 hmem with rfl | hmem
    · exact Or.inl hs
    · exact Or.inr (ih hmem)

/-- what a value shows is a secret of it, except for the empty text -/
theorem Value.Shows.mem_secrets {v : Value} {s : String} (h : v.Shows s) (hne : s ≠ "") : s ∈ v.secrets := by
  induction h with
  | bool b => exact List.mem_singleton_self _
  | int i => exact List.mem_singleton_self _
  | float x => exact List.mem_singleton_self _
  | text s =>
    rw [Value.secrets, if_neg hne]
    exact List.mem_singleton_self s
  | item hmem _ ih => exact Value.mem_secretsOfItems hmem (ih hne)

theorem Confidential.mem {op : Operation} {args : List Arg} {registered : List String} {value : String}
    (h : Confidential op args registered value) (hne : value ≠ "") :
    value ∈ Naming.secretsOf op args ∨ value ∈ registered := by
  rcases h with hregistered | ⟨a, ha, hmasked, hshows⟩
  · exact Or.inr hregistered
  · refine Or.inl (List.mem_flatMap.2 ⟨a, List.mem_filter.2 ⟨ha, hmasked⟩, ?_⟩)
    exact hshows.mem_secrets hne

/-! ## Masking twice -/

/-- the second masking brings nothing back -/
theorem hides_mask_mask {first second : List String} {value : String} (h : value ∈ first ∨ value ∈ second)
    (hstar : '*' ∉ value.toList) (hne : value ≠ "") (text : String) :
    Hides value (mask second (mask first text)) := by
  rcases h with hfirst | hsecond
  · exact (hides_mask hfirst hstar hne text).mask hstar second
  · exact hides_mask hsecond hstar hne _

namespace Recorder

/-- the last node in the innermost open step, or the last root -/
def lastNode? (r : Recorder) : Option Node :=
  match r.openSteps with
  | [] => r.roots.getLast?
  | s :: _ => s.children.getLast?

theorem lastNode?_attach (r : Recorder) (n : Node) : (r.attach n).lastNode? = some n := by
  cases ho : r.openSteps with
  | nil =>
    rw [attach_nil r ho, lastNode?, ho]
    simp
  | cons s outer =>
    rw [attach_cons r s outer ho, lastNode?]
    simp [adding]

theorem lastNode?_recordAction (r : Recorder) (a : Action) :
    (r.recordAction a).lastNode? = some (.action { a with name := r.masked a.name }) := by
  rw [recordAction_eq]
  exact lastNode?_attach _ _

theorem masked_eq {r : Recorder} (h : r.maskEnabled = true) (text : String) : r.masked text = mask r.secrets text := by
  unfold masked maskWhen
  exact if_pos h

end Recorder

/-! ## Names of calls -/

namespace TestRun

variable {σ α : Type} {r : TestRun σ}

/-- each name of a step is some text, masked with the secrets of the call -/
theorem stepName_masked (h : r.settings.maskPassword = true) (op : Operation) (args : List Arg) :
    ∃ text, r.stepName op args = mask (Naming.secretsOf op args) text := by
  unfold stepName Naming.scenarioName Naming.name maskWhen
  rw [h]
  split
  · exact ⟨_, rfl⟩
  · exact ⟨_, rfl⟩

theorem actionName_masked (h : r.settings.maskPassword = true) (op : Operation) (i : Invocation) :
    ∃ text, r.actionName op i = mask (Naming.secretsOf op i.args) text := by
  unfold actionName Naming.name maskWhen
  rw [h]
  exact ⟨_, rfl⟩

theorem name_actionOf (name : String) (op : Operation) (i : Invocation) (outcome : Outcome α) (now : Timestamp) :
    (actionOf name op i outcome now).name = name := by
  unfold actionOf
  split
  · rfl
  · rfl

/-- **Masked arguments never reach a recorded name.** Masking is on, and a text without stars is registered as a secret
or comes with a masked argument of a call: in it at any depth, or as a number or truth value in it. Then neither the
step that the call opens shows the text in its name, nor the action that it records, whatever the operation, the
element, the other arguments and the outcome are. -/
theorem masked_arguments_hidden (r : TestRun σ) (op : Operation) (i : Invocation) (recorder : Recorder) (value : String)
    (hsettings : r.settings.maskPassword = true) (hmask : recorder.maskEnabled = true) (hne : value ≠ "")
    (hstar : '*' ∉ value.toList) (hvalue : Confidential op i.args recorder.secrets value) :
    (∃ s, (recorder.openStep (r.stepOf op i)).current? = some s ∧ Hides value s.head.name) ∧
      ∀ (outcome : Outcome α) (now : Timestamp),
        ∃ n, (recorder.recordAction (actionOf (r.actionName op i) op i outcome now)).lastNode? = some n ∧
          Hides value n.name := by
  have hmem := hvalue.mem hne
  constructor
  · obtain ⟨text, htext⟩ := stepName_masked hsettings op i.args
    refine ⟨Recorder.opened recorder (r.stepOf op i), ?_, ?_⟩
    · rw [Recorder.openStep_eq]
      rfl
    · change Hides value (recorder.masked (r.stepName op i.args))
      rw [htext, Recorder.masked_eq hmask]
      exact hides_mask_mask hmem hstar hne text
  · intro outcome now
    obtain ⟨text, htext⟩ := actionName_masked hsettings op i
    refine ⟨_, Recorder.lastNode?_recordAction recorder _, ?_⟩
    change Hides value (recorder.masked (actionOf (r.actionName op i) op i outcome now).name)
    rw [name_actionOf, htext, Recorder.masked_eq hmask]
    exact hides_mask_mask hmem hstar hne text

/-- a login with a list of codes, one of them in a list of its own; the name of the user shows, the codes do not -/
theorem codes_of_login_hidden :
    let r : TestRun Unit := .start "login" {} {} (.steady 0) {} Recorder.noon ()
    let op := (Operation.ofKind "login" .step).masking "codes"
    let i : Invocation :=
      { operation := "login"
        args := [⟨"user", .text "ann"⟩, ⟨"codes", .list [.text "hunter22", .list [.int 4711, .bool true]]⟩] }
    let recorder := Recorder.fresh true Recorder.noon
    Confidential op i.args recorder.secrets "4711" ∧
      (recorder.openStep (r.stepOf op i)).current?.map (fun s => s.head.name) =
        some "login with args: (\"ann\", [******,[******,******,],])" ∧
      (∃ s, (recorder.openStep (r.stepOf op i)).current? = some s ∧ Hides "4711" s.head.name) ∧
      ∀ (outcome : Outcome Unit) (now : Timestamp),
        ∃ n, (recorder.recordAction (actionOf (r.actionName op i) op i outcome now)).lastNode? = some n ∧
          Hides "4711" n.name := by
  intro r op i recorder
  have hcode : Confidential op i.args recorder.secrets "4711" := by
    refine Or.inr ⟨_, List.mem_cons_of_mem _ List.mem_cons_self, by decide +kernel, ?_⟩
    have hint : (Value.int 4711).display = "4711" := by decide +kernel
    refine .item (List.mem_cons_of_mem _ List.mem_cons_self) (.item List.mem_cons_self ?_)
    exact hint ▸ .int 4711
  exact ⟨hcode, by decide +kernel,
    masked_arguments_hidden r op i recorder "4711" rfl rfl (by decide) (by decide) hcode⟩

end TestRun

end TestTrail
