/-
What the failures of a driver plan come to.

A driver is used by executing commands and by switching documents, in any order. For one command the plan has a script,
the failures with a count, each as often as its count says, and perhaps a lasting failure behind them; of both only those
that apply to the attempt. `expected` reads off what the executions of the command answer, one after the other.

`outlook` is what a driver in any state has ready for a command. An execution takes the next answer off the outlook of
its own command and leaves those of the others alone (`outlook_execute`), and a plan builds the driver with the expected
outlook (`outlook_build`); `script_replayed` puts this together with the journal.
-/
import TestTrail.Plan

namespace TestTrail

/-! ## What a plan promises -/

/-- an entry describes a failure of the kind that has its tag, or of the driver if no kind has it, with its message, or
with its command if it has none -/
theorem FailurePlan.failure_described (f : FailurePlan) :
    (∀ k : FailureKind, k.tag = f.kind → f.failure.kind = k) ∧
      ((∀ k : FailureKind, k.tag ≠ f.kind) → f.failure.kind = .driver) ∧
      f.failure.message = f.message.getD f.command := by
  refine ⟨fun k hk => ?_, fun hnone => ?_, rfl⟩
  · unfold failure
    rw [← hk]
    exact FailureKind.ofTag_tag k
  · have hfind : (FailureKind.all.find? fun k => k.tag == f.kind) = none :=
      List.find?_eq_none.2 fun k _ hk => hnone k (beq_iff_eq.1 hk)
    unfold failure FailureKind.ofTag
    rw [hfind]
    rfl

/-- a failure with a count, as often as its count says -/
def FailurePlan.copies (f : FailurePlan) : List Failure :=
  match f.times with
  | some times => List.replicate times.toNat f.failure
  | none => []

/-- a failure without a count -/
def FailurePlan.isLasting (f : FailurePlan) : Bool := f.times.isNone

namespace DriverPlan

variable (p : DriverPlan) (attempt : UInt32) (command : String)

/-- the failures of a command that apply to the attempt, in the plan's order -/
def applicable : List FailurePlan :=
  p.failures.filter fun f => decide (f.command = command ∧ (f.onAttempts = [] ∨ attempt ∈ f.onAttempts))

/-- the failures with a count, one after the other -/
def script : List Failure := (p.applicable attempt command).flatMap FailurePlan.copies

/-- the last failure without a count -/
def lasting? : Option Failure :=
  ((p.applicable attempt command).filter FailurePlan.isLasting).getLast?.map FailurePlan.failure

/-- what the executions of a command answer, counted from zero -/
def expected (i : Nat) : Except Failure String :=
  match (p.script attempt command)[i]?, p.lasting? attempt command with
  | some f, _ => .error f
  | none, some f => .error f
  | none, none => .ok ""

end DriverPlan

namespace Driver

/-! ## Uses of a driver -/

/-- what a driver is asked to do -/
inductive Use where
  | execute (command : String) (element : Option Element) (args : List String)
  | defaultContent
  | frame (name : String)
  deriving DecidableEq, Repr

namespace Use

def executes (command : String) : Use → Bool
  | execute name _ _ => name == command
  | _ => false

/-- how the journal shows the use -/
def entry : Use → JournalEntry
  | execute command element args => .command command (element.map Element.label) args
  | defaultContent => .defaultContent
  | frame name => .frame name

end Use

/-- the answer, empty where a switch succeeds, and the driver behind it -/
def use (d : Driver) : Use → Except Failure String × Driver
  | .execute command element args => d.execute command element args
  | .defaultContent => (d.toDefaultContent.1.map fun _ => "", d.toDefaultContent.2)
  | .frame name => ((d.toFrame name).1.map fun _ => "", (d.toFrame name).2)

def after (d : Driver) (uses : List Use) : Driver := uses.foldl (fun d u => (d.use u).2) d

/-- the uses with their answers -/
def transcript : Driver → List Use → List (Use × Except Failure String)
  | _, [] => []
  | d, u :: uses => (u, (d.use u).1) :: transcript (d.use u).2 uses

/-- the answers to the executions of one command -/
def answersTo (command : String) (t : List (Use × Except Failure String)) : List (Except Failure String) :=
  (t.filter fun x => x.1.executes command).map Prod.snd

theorem answersTo_cons (command : String) (u : Use) (answer : Except Failure String)
    (t : List (Use × Except Failure String)) :
    answersTo command ((u, answer) :: t) =
      if u.executes command then answer :: answersTo command t else answersTo command t := by
  unfold answersTo
  rw [List.filter_cons]
  split <;> rfl

/-! ## The outlook of a command -/

/-- the failures that are queued for a command -/
def pending (command : String) (queued : List QueuedFailure) : List Failure :=
  queued.flatMap fun q => if q.command = command then List.replicate q.times q.failure else []

/-- what the executions of a command will answer from now on, counted from zero -/
def outlook (d : Driver) (command : String) (i : Nat) : Except Failure String :=
  match (pending command d.queued)[i]?, d.permanent.get? command with
  | some f, _ => .error f
  | none, some f => .error f
  | none, none => .ok ((d.responses.get? command).getD "")

theorem pending_cons (command : String) (q : QueuedFailure) (queued : List QueuedFailure) :
    pending command (q :: queued) =
      (if q.command = command then List.replicate q.times q.failure else []) ++ pending command queued := rfl

/-- a failure that is passed over has no executions of the command left -/
theorem pending_cons_of_passed {command : String} {q : QueuedFailure} (hq : ¬ (q.command = command ∧ 0 < q.times))
    (queued : List QueuedFailure) : pending command (q :: queued) = pending command queued := by
  rw [pending_cons]
  split
  · rename_i hc
    have htimes : q.times = 0 := Nat.eq_zero_of_not_pos fun hpos => hq ⟨hc, hpos⟩
    rw [htimes, List.replicate_zero, List.nil_append]
  · rfl

theorem pending_of_takeQueued_none {command : String} {queued : List QueuedFailure}
    (h : takeQueued command queued = none) : pending command queued = [] := by
  induction queued with
  | nil => rfl
  | cons q queued ih =>
    unfold takeQueued at h
    split at h
    · cases h
    · rename_i hq
      rw [pending_cons_of_passed hq, ih (Option.map_eq_none_iff.1 h)]

/-- the failure that is taken is the first one of its command, and those of other commands stay -/
theorem pending_of_takeQueued {command : String} {queued rest : List QueuedFailure} {f : Failure}
    (h : takeQueued command queued = some (f, rest)) :
    pending command queued = f :: pending command rest ∧
      ∀ other, other ≠ command → pending other rest = pending other queued := by
  induction queued generalizing rest with
  | nil => cases h
  | cons q queued ih =>
    unfold takeQueued at h
    split at h
    · rename_i hq
      obtain ⟨hcommand, hpos⟩ := hq
      obtain ⟨rfl, rfl⟩ := Prod.mk.inj (Option.some.inj h)
      refine ⟨?_, fun other hother => ?_⟩
      · rw [pending_cons, pending_cons, if_pos hcommand, if_pos hcommand]
        obtain ⟨n, hn⟩ := Nat.exists_eq_succ_of_ne_zero (Nat.ne_of_gt hpos)
        rw [hn]
        rfl
      · have hq : q.command ≠ other := hcommand ▸ hother.symm
        rw [pending_cons, pending_cons, if_neg hq, if_neg hq]
    · rename_i hq
      obtain ⟨⟨g, later⟩, hlater, heq⟩ := Option.map_eq_some_iff.1 h
      obtain ⟨rfl, rfl⟩ := Prod.mk.inj heq
      obtain ⟨hfirst, hothers⟩ := ih hlater
      refine ⟨?_, fun other hother => ?_⟩
      · rw [pending_cons_of_passed hq, pending_cons_of_passed hq]
        exact hfirst
      · rw [pending_cons, pending_cons, hothers other hother]

theorem outlook_congr {d e : Driver} {command : String} (hpending : pending command e.queued = pending command d.queued)
    (hpermanent : e.permanent = d.permanent) (hresponses : e.responses = d.responses) :
    e.outlook command = d.outlook command := by
  funext i
  unfold outlook
  rw [hpending, hpermanent, hresponses]

/-- **The step lemma**: an execution answers what the outlook of its command begins with, and takes this answer off. -/
theorem outlook_execute (d : Driver) (command : String) (element : Option Element) (args : List String) :
    (d.execute command element args).1 = d.outlook command 0 ∧
      ((d.execute command element args).2.outlook command = fun i => d.outlook command (i + 1)) ∧
      ∀ other, other ≠ command → (d.execute command element args).2.outlook other = d.outlook other := by
  unfold execute answer
  cases hq : takeQueued command d.queued with
  | none =>
    have hnone : pending command d.queued = [] := pending_of_takeQueued_none hq
    refine ⟨?_, ?_, fun other _ => ?_⟩
    · unfold outlook
      rw [hnone]
      cases d.permanent.get? command <;> rfl
    · funext i
      unfold outlook
      cases hp : d.permanent.get? command <;> simp [note, hnone, hp]
    · cases d.permanent.get? command <;> exact outlook_congr rfl rfl rfl
  | some taken =>
    obtain ⟨f, rest⟩ := taken
    obtain ⟨hfirst, hothers⟩ := pending_of_takeQueued hq
    refine ⟨?_, ?_, fun other hother => outlook_congr (hothers other hother) rfl rfl⟩
    · unfold outlook
      rw [hfirst]
      rfl
    · funext i
      unfold outlook
      rw [hfirst, List.getElem?_cons_succ]
      rfl

theorem outlook_defaultContent (d : Driver) : d.toDefaultContent.2.outlook = d.outlook :=
  funext fun _ => outlook_congr rfl rfl rfl

theorem outlook_frame (d : Driver) (name : String) : (d.toFrame name).2.outlook = d.outlook :=
  funext fun _ => outlook_congr rfl rfl rfl

/-- the run lemma: the executions of a command answer what its outlook says, whatever is done in between -/
theorem answersTo_transcript (d : Driver) (uses : List Use) (command : String) :
    answersTo command (d.transcript uses) =
      (List.range (uses.countP (Use.executes command))).map (d.outlook command) := by
  induction uses generalizing d with
  | nil => rfl
  | cons u uses ih =>
    rw [transcript, answersTo_cons, ih (d.use u).2]
    by_cases hu : u.executes command = true
    · rw [if_pos hu, List.countP_cons_of_pos hu, List.range_succ_eq_map, List.map_cons, List.map_map]
      cases u with
      | execute name element args =>
        obtain rfl : name = command := beq_iff_eq.1 hu
        obtain ⟨hanswer, hnext, -⟩ := d.outlook_execute name element args
        rw [use, hanswer, hnext]
        rfl
      | defaultContent => cases hu
      | frame name => cases hu
    · rw [if_neg hu, List.countP_cons_of_neg hu]
      cases u with
      | execute name element args =>
        have hname : command ≠ name := fun h => hu (beq_iff_eq.2 h.symm)
        rw [use, (d.outlook_execute name element args).2.2 command hname]
      | defaultContent => rw [use, outlook_defaultContent]
      | frame name => rw [use, outlook_frame]

/-! ## The journal and the switches -/

theorem journal_use (d : Driver) (u : Use) : (d.use u).2.journal = d.journal ++ [u.entry] := by
  cases u with
  | _ => rfl

theorem journal_after (d : Driver) (uses : List Use) : (d.after uses).journal = d.journal ++ uses.map Use.entry := by
  induction uses generalizing d with
  | nil => exact (List.append_nil _).symm
  | cons u uses ih =>
    rw [after, List.foldl_cons, List.map_cons]
    exact (ih (d.use u).2).trans (by rw [journal_use, List.append_assoc]; rfl)

/-- no switch is told to fail -/
structure Switches (d : Driver) : Prop where
  content : d.contentScript = []
  frame : d.frameScript = []

theorem Switches.use {d : Driver} (h : d.Switches) (u : Use) : (d.use u).2.Switches := by
  cases u with
  | execute => exact ⟨h.content, h.frame⟩
  | defaultContent => exact ⟨by simp [Driver.use, toDefaultContent, h.content], h.frame⟩
  | frame name => exact ⟨h.content, by simp [Driver.use, toFrame, h.frame]⟩

theorem Switches.succeed {d : Driver} (h : d.Switches) (uses : List Use) :
    ∀ x ∈ d.transcript uses, (∀ command, x.1.executes command = false) → x.2 = .ok "" := by
  induction uses generalizing d with
  | nil => exact fun x hx => absurd hx List.not_mem_nil
  | cons u uses ih =>
    rw [transcript]
    refine List.forall_mem_cons.2 ⟨fun hswitch => ?_, ih (h.use u)⟩
    cases u with
    | execute name element args => exact absurd (hswitch name) (by simp [Use.executes])
    | defaultContent => simp [Driver.use, toDefaultContent, nextOutcome, h.content, Except.map]
    | frame name => simp [Driver.use, toFrame, nextOutcome, h.frame, Except.map]

end Driver

/-! ## The driver of a plan -/

open Driver

namespace FailurePlan

/-- adds some failures to a driver, one after the other -/
def addAll (failures : List FailurePlan) (d : Driver) : Driver := failures.foldl (fun d f => f.addTo d) d

theorem pending_addTo (f : FailurePlan) (d : Driver) (command : String) :
    pending command (f.addTo d).queued = pending command d.queued ++ if f.command = command then f.copies else [] := by
  unfold addTo copies
  cases f.times with
  | none => simp [alwaysFail]
  | some times => simp [failNext, pending]

theorem permanent_addTo (f : FailurePlan) (d : Driver) (command : String) :
    (f.addTo d).permanent.get? command =
      if f.command = command ∧ f.isLasting = true then some f.failure else d.permanent.get? command := by
  unfold addTo isLasting
  cases f.times with
  | none => simp [alwaysFail, Keyed.get?_set]
  | some times => simp [failNext]

theorem pending_addAll (failures : List FailurePlan) (d : Driver) (command : String) :
    pending command (addAll failures d).queued =
      pending command d.queued ++ (failures.filter fun f => f.command = command).flatMap copies := by
  induction failures generalizing d with
  | nil => exact (List.append_nil _).symm
  | cons f failures ih =>
    rw [addAll, List.foldl_cons, ← addAll, ih, pending_addTo, List.append_assoc, List.filter_cons]
    by_cases hf : f.command = command
    · simp [hf]
    · simp [hf]

/-- of the lasting failures of a command the last one counts -/
theorem permanent_addAll (failures : List FailurePlan) (d : Driver) (command : String) :
    (addAll failures d).permanent.get? command =
      (((failures.filter fun f => f.command = command).filter isLasting).getLast?.map failure).or
        (d.permanent.get? command) := by
  induction failures generalizing d with
  | nil => rfl
  | cons f failures ih =>
    rw [addAll, List.foldl_cons, ← addAll, ih, permanent_addTo, List.filter_cons]
    by_cases hf : f.command = command ∧ f.isLasting = true
    · rw [if_pos hf, if_pos (decide_eq_true hf.1), List.filter_cons_of_pos hf.2, List.getLast?_cons]
      cases ((failures.filter fun f => f.command = command).filter isLasting).getLast? with
      | none => rfl
      | some g => rfl
    · rw [if_neg hf]
      split
      · rename_i hc
        rw [List.filter_cons_of_neg fun hlasting => hf ⟨of_decide_eq_true hc, hlasting⟩]
      · rfl

/-- what a plan's failures leave alone -/
theorem addAll_rest (failures : List FailurePlan) (d : Driver) :
    (addAll failures d).responses = d.responses ∧ (addAll failures d).journal = d.journal ∧
      (addAll failures d).contentScript = d.contentScript ∧ (addAll failures d).frameScript = d.frameScript := by
  induction failures generalizing d with
  | nil => exact ⟨rfl, rfl, rfl, rfl⟩
  | cons f failures ih =>
    have hf : (f.addTo d).responses = d.responses ∧ (f.addTo d).journal = d.journal ∧
        (f.addTo d).contentScript = d.contentScript ∧ (f.addTo d).frameScript = d.frameScript := by
      unfold addTo
      cases f.times with
      | _ => exact ⟨rfl, rfl, rfl, rfl⟩
    rw [addAll, List.foldl_cons, ← addAll]
    obtain ⟨hresponses, hjournal, hcontent, hframe⟩ := ih (f.addTo d)
    exact ⟨hresponses.trans hf.1, hjournal.trans hf.2.1, hcontent.trans hf.2.2.1, hframe.trans hf.2.2.2⟩

end FailurePlan

namespace DriverPlan

open FailurePlan

theorem applicable_eq (p : DriverPlan) (attempt : UInt32) (command : String) :
    p.applicable attempt command =
      ((p.failures.filter fun f => f.appliesTo attempt).filter fun f => f.command = command) := by
  rw [List.filter_filter]
  refine List.filter_congr fun f _ => ?_
  unfold appliesTo
  cases f.onAttempts with
  | nil => simp
  | cons a as => simp

/-- a plan builds the driver that it promises -/
theorem outlook_build (p : DriverPlan) (attempt : UInt32) (command : String) :
    (p.build attempt).outlook command = p.expected attempt command := by
  have hbuild : ∃ d : Driver, p.build attempt = addAll (p.failures.filter fun f => f.appliesTo attempt) d ∧
      d.queued = [] ∧ d.permanent = [] ∧ d.responses = [] := ⟨_, rfl, rfl, rfl, rfl⟩
  obtain ⟨d, hd, hqueued, hpermanent, hresponses⟩ := hbuild
  funext i
  unfold outlook expected script lasting?
  rw [hd, pending_addAll, permanent_addAll, (addAll_rest _ d).1, hqueued, hpermanent, hresponses, ← applicable_eq]
  simp [pending, Keyed.get?]

theorem build_fresh (p : DriverPlan) (attempt : UInt32) :
    (p.build attempt).journal = [] ∧ (p.build attempt).Switches := by
  obtain ⟨-, hjournal, hcontent, hframe⟩ := addAll_rest (p.failures.filter fun f => f.appliesTo attempt)
    { title := p.title.getD ({} : Driver).title, latency := p.latencyMs.getD 0 * nanosPerMilli }
  exact ⟨hjournal, hcontent, hframe⟩

/-- **A driver replays its plan's script exactly.** However a driver built for an attempt is used,

* the executions of a command answer, one after the other, the failures that the plan counts for it, each as often as its
  count says and in the plan's order; then the last of its lasting failures, if it has one; and otherwise the empty text.
  So nothing but the number of executions of the same command before it decides what an execution answers;
* every switch succeeds;
* the journal has every execution and every switch, failed ones included, once and in order. -/
theorem script_replayed (p : DriverPlan) (attempt : UInt32) (uses : List Use) :
    let d := p.build attempt
    (∀ command, answersTo command (d.transcript uses) =
        (List.range (uses.countP (Use.executes command))).map (p.expected attempt command)) ∧
      (∀ x ∈ d.transcript uses, (∀ command, x.1.executes command = false) → x.2 = .ok "") ∧
      (d.after uses).journal = uses.map Use.entry := by
  intro d
  obtain ⟨hjournal, hswitches⟩ := p.build_fresh attempt
  refine ⟨fun command => ?_, hswitches.succeed uses, ?_⟩
  · rw [answersTo_transcript, outlook_build]
  · rw [journal_after, hjournal, List.nil_append]

/-- a lasting failure that stands first in the plan comes last, and a count for other attempts does not matter -/
example :
    let p : DriverPlan :=
      { failures :=
          [{ command := "click", kind := "timeout" }, { command := "click", times := some 2, kind := "stale" },
            { command := "click", times := some 9, kind := "driver", onAttempts := [0] },
            { command := "click", times := some 1, kind := "assertion", message := some "gone", onAttempts := [1, 2] }] }
    (List.range 5).map (p.expected 1 "click") =
      [.error ⟨.stale, "click"⟩, .error ⟨.stale, "click"⟩, .error ⟨.assertion, "gone"⟩, .error ⟨.timeout, "click"⟩,
        .error ⟨.timeout, "click"⟩] := rfl

end DriverPlan

end TestTrail
