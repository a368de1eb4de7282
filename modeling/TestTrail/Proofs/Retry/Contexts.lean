/-
What the coordinator knows of a context, from the history of that context.

A history is what a runner told the coordinator, about any number of contexts in any order (`Event`). An event changes
the entry of its own context, from what that entry was, and no other entry (`entry_tell_own`, `entry_tell_other`); so
behind a history the coordinator has of a context what the events of that context alone leave (`entry_after`), and
everything that can be observed of a context is read off its entry.

The stretch of a context are its events since it was last started or ended. While a context runs, its state is the
stretch, noted event by event (`running_after`). So the answer at its end can be said in terms of the stretch alone:
which of its failures were answered as final, and whether one was answered as to be retried.
`context_follows_own_history` puts it together.
-/
import Mathlib.Data.List.DropRight
import Mathlib.Tactic
import TestTrail.Retry.Coordinator

namespace TestTrail

/-! ## Results by their keys -/

namespace ResultMap

/-- a result with a known key takes the place of the old one, so no key is lost -/
theorem any_key_addTo (p : ResultKey → Bool) (result : TestResult) (rs : List TestResult) :
    (addTo result rs).any (fun r => p r.key) = (rs.any (fun r => p r.key) || p result.key) := by
  induction rs with
  | nil => simp [addTo]
  | cons r rs ih =>
    rw [addTo]
    split
    · rename_i hkey
      simp only [List.any_cons, hkey]
      cases p result.key <;> simp
    · simp only [List.any_cons, ih, Bool.or_assoc]

/-- the map of some results, added one after the other -/
def ofResults (results : List TestResult) : ResultMap := results.foldl add {}

theorem any_key_foldl_add (p : ResultKey → Bool) (results : List TestResult) (m : ResultMap) :
    (results.foldl add m).results.any (fun r => p r.key) =
      (m.results.any (fun r => p r.key) || results.any fun r => p r.key) := by
  induction results generalizing m with
  | nil => simp
  | cons r results ih =>
    rw [List.foldl_cons, ih]
    simp only [add, any_key_addTo, List.any_cons, Bool.or_assoc]

theorem containsKey_ofResults (results : List TestResult) (key : ResultKey) :
    (ofResults results).containsKey key = decide (key ∈ results.map TestResult.key) := by
  have h := any_key_foldl_add (fun k => k == key) results {}
  simp only [List.any_nil, Bool.false_or] at h
  unfold containsKey ofResults
  rw [h, Bool.eq_iff_iff]
  simp

theorem containsMethod_ofResults (results : List TestResult) (method : String) :
    (ofResults results).containsMethod method = decide (method ∈ results.map TestResult.method) := by
  have h := any_key_foldl_add (fun k => k.method == method) results {}
  simp only [List.any_nil, Bool.false_or] at h
  unfold containsMethod ofResults
  change (results.foldl add {}).results.any (fun r => r.key.method == method) = _
  rw [h, Bool.eq_iff_iff]
  simp [TestResult.key]

end ResultMap

/-- the results that remain when these failures are the final ones: of the failures these, and no skip of a method that
has one of them or passed -/
def NativeResults.settled (native : NativeResults) (finals : List TestResult) : NativeResults :=
  { native with
    failed := ⟨native.failed.results.filter fun r => decide (r.key ∈ finals.map TestResult.key)⟩
    skipped := ⟨native.skipped.results.filter fun r =>
      decide (r.method ∉ finals.map TestResult.method ∧ r.method ∉ native.passed.results.map TestResult.method)⟩ }

theorem reconcile_ofResults (native : NativeResults) (finals : List TestResult) :
    (reconcile native (.ofResults finals)).1 = native.settled finals := by
  have hpassed : ∀ method, native.passed.containsMethod method =
      decide (method ∈ native.passed.results.map TestResult.method) := by
    intro method
    rw [ResultMap.containsMethod, Bool.eq_iff_iff]
    simp
  simp only [reconcile, removeSettledSkips, removeRetriedFailures, ResultMap.retain, NativeResults.settled,
    ResultMap.containsKey_ofResults, ResultMap.containsMethod_ofResults, hpassed, Bool.decide_and, decide_not]

namespace Coordinator

/-! ## Histories -/

/-- what a runner tells; at the end of an execution also whether it would try again -/
inductive Event where
  | contextStart (context : String)
  | methodStart (context method : String)
  | methodEnd (result : TestResult) (willRetry : Bool)
  | contextEnd (native : NativeResults)
  deriving DecidableEq, Repr

/-- what the runner is answered -/
inductive Answer where
  | nothing
  /-- the result as it counts from now on, and the state of its method -/
  | judged (result : TestResult) (state : MethodState)
  /-- the results as they remain -/
  | remaining (native : NativeResults)
  deriving DecidableEq, Repr

namespace Event

/-- the context that the event is about -/
def context : Event → String
  | contextStart context => context
  | methodStart context _ => context
  | methodEnd result _ => result.context
  | contextEnd native => native.context

def about (context : String) (e : Event) : Bool := e.context == context

def isEnd : Event → Bool
  | contextEnd _ => true
  | _ => false

/-- the context starts, over again if it was running, or ends -/
def isBoundary : Event → Bool
  | contextStart _ => true
  | contextEnd _ => true
  | _ => false

/-- the answer is that the failure will be retried -/
def retried : Event → Bool
  | methodEnd result willRetry => (ContextState.judge result willRetry).2 == .failedRetrying
  | _ => false

/-- the result that is answered to be a final failure -/
def finalFailure? : Event → Option TestResult
  | methodEnd result willRetry =>
    if (ContextState.judge result willRetry).2 == .failedFinal then some (ContextState.judge result willRetry).1
    else none
  | _ => none

end Event

def tell (c : Coordinator) : Event → Answer × Coordinator
  | .contextStart context => (.nothing, c.contextStart context)
  | .methodStart context method => (.nothing, c.methodStart context method)
  | .methodEnd result willRetry =>
    let (judged, c) := c.methodEnd result willRetry
    (.judged judged.1 judged.2, c)
  | .contextEnd native =>
    let (remaining, c) := c.contextEnd native
    (.remaining remaining, c)

/-- the coordinator behind a history -/
def after (history : List Event) : Coordinator := history.foldl (fun c e => (c.tell e).2) {}

/-! ## One context among others -/

/-- what is kept of a context: its state while it runs, and the state that its last end left -/
@[ext]
structure Entry where
  running : Option ContextState := none
  final : Option ContextState := none

def entry (c : Coordinator) (context : String) : Entry := ⟨c.running.get? context, c.finished.get? context⟩

namespace Entry

/-- the entry behind an event of its context -/
def told (k : Entry) : Event → Entry
  | .contextStart _ => { k with running := some {} }
  | .methodStart _ method => { k with running := some ((k.running.getD {}).methodStarted method) }
  | .methodEnd result willRetry => { k with running := some ((k.running.getD {}).methodEnded result willRetry) }
  | .contextEnd native =>
    match k.running with
    | none => k
    | some s => ⟨none, some (s.ended native).2⟩

/-- the answer to an event of the context -/
def answer (k : Entry) : Event → Answer
  | .contextStart _ => .nothing
  | .methodStart .. => .nothing
  | .methodEnd result willRetry =>
    .judged (ContextState.judge result willRetry).1 (ContextState.judge result willRetry).2
  | .contextEnd native =>
    match k.running with
    | none => .remaining native
    | some s => .remaining (s.ended native).1

end Entry

theorem contextEnd_eq {c : Coordinator} {native : NativeResults} {s : ContextState}
    (h : c.running.get? native.context = some s) :
    c.contextEnd native =
      ((s.ended native).1, ⟨c.running.erase native.context, c.finished.set native.context (s.ended native).2⟩) := by
  unfold contextEnd
  rw [h]

theorem contextEnd_of_not_running {c : Coordinator} {native : NativeResults}
    (h : c.running.get? native.context = none) : c.contextEnd native = (native, c) := by
  unfold contextEnd
  rw [h]

theorem answer_tell (c : Coordinator) (e : Event) : (c.tell e).1 = (c.entry e.context).answer e := by
  cases e with
  | contextEnd native =>
    simp only [tell, Event.context, entry, Entry.answer]
    cases hrunning : c.running.get? native.context with
    | none => rw [contextEnd_of_not_running hrunning]
    | some s => rw [contextEnd_eq hrunning]
  | _ => rfl

theorem entry_tell_own (c : Coordinator) (e : Event) :
    (c.tell e).2.entry e.context = (c.entry e.context).told e := by
  cases e with
  | contextStart context =>
    simp only [tell, contextStart, Event.context, entry, Entry.told, Keyed.get?_set, if_true]
  | methodStart context method =>
    simp only [tell, methodStart, stateOf, Event.context, entry, Entry.told, Keyed.get?_set, if_true]
  | methodEnd result willRetry =>
    simp only [tell, methodEnd, stateOf, Event.context, entry, Entry.told, Keyed.get?_set, if_true]
  | contextEnd native =>
    simp only [tell, Event.context, entry, Entry.told]
    cases hrunning : c.running.get? native.context with
    | none => simp only [contextEnd_of_not_running hrunning, hrunning]
    | some s => simp only [contextEnd_eq hrunning, Keyed.get?_erase, Keyed.get?_set, if_true]

theorem entry_tell_other (c : Coordinator) {e : Event} {context : String} (h : e.context ≠ context) :
    (c.tell e).2.entry context = c.entry context := by
  cases e with
  | contextStart own =>
    change own ≠ context at h
    simp only [tell, contextStart, entry, Keyed.get?_set, if_neg h]
  | methodStart own method =>
    change own ≠ context at h
    simp only [tell, methodStart, entry, Keyed.get?_set, if_neg h]
  | methodEnd result willRetry =>
    change result.context ≠ context at h
    simp only [tell, methodEnd, entry, Keyed.get?_set, if_neg h]
  | contextEnd native =>
    change native.context ≠ context at h
    simp only [tell]
    cases hrunning : c.running.get? native.context with
    | none => rw [contextEnd_of_not_running hrunning]
    | some s => simp only [contextEnd_eq hrunning, entry, Keyed.get?_erase, Keyed.get?_set, if_neg h]

/-- the events of the others can be left out -/
theorem entry_foldl (history : List Event) (c : Coordinator) (context : String) :
    (history.foldl (fun c e => (c.tell e).2) c).entry context =
      (history.filter (Event.about context)).foldl Entry.told (c.entry context) := by
  induction history generalizing c with
  | nil => rfl
  | cons e history ih =>
    rw [List.foldl_cons, ih]
    by_cases h : e.context = context
    · subst h
      rw [List.filter_cons_of_pos (by simp [Event.about]), List.foldl_cons, entry_tell_own]
    · rw [List.filter_cons_of_neg (by simpa [Event.about] using h), entry_tell_other c h]

theorem entry_after (history : List Event) (context : String) :
    (after history).entry context = (history.filter (Event.about context)).foldl Entry.told {} :=
  entry_foldl history {} context

/-- behind the events of a context alone, its entry is the same -/
theorem entry_after_own (history : List Event) (context : String) :
    (after (history.filter (Event.about context))).entry context = (after history).entry context := by
  rw [entry_after, entry_after, List.filter_filter]
  simp only [Bool.and_self]

/-! ## The stretch of a running context -/

/-- what happened in a context since it was last started or ended -/
def stretch (context : String) (history : List Event) : List Event :=
  (history.filter (Event.about context)).rtakeWhile fun e => !e.isBoundary

/-- something happened in the context, and the last of it was not its end -/
def runs (context : String) (history : List Event) : Bool :=
  (history.filter (Event.about context)).getLast?.any fun e => !e.isEnd

end Coordinator

namespace ContextState

open Coordinator

/-- the state of a context with an event noted -/
def noted (s : ContextState) : Event → ContextState
  | .methodStart _ method => s.methodStarted method
  | .methodEnd result willRetry => s.methodEnded result willRetry
  | _ => s

theorem ended_of_retried {s : ContextState} (native : NativeResults) (h : s.handleNeeded = true) :
    s.ended native = ((reconcile native s.failed).1,
      { s with skipped := (reconcile native s.failed).1.skipped, passed := native.passed }) := by
  unfold ended
  rw [if_pos h]
  rfl

theorem ended_of_not_retried {s : ContextState} (native : NativeResults) (h : ¬ s.handleNeeded = true) :
    s.ended native =
      (native, { s with failed := native.failed, skipped := native.skipped, passed := native.passed }) := by
  unfold ended
  rw [if_neg h]

theorem handleNeeded_noted (events : List Event) (s : ContextState) :
    (events.foldl noted s).handleNeeded = (s.handleNeeded || events.any Event.retried) := by
  induction events generalizing s with
  | nil => simp
  | cons e events ih =>
    rw [List.foldl_cons, ih, List.any_cons, ← Bool.or_assoc]
    congr 1
    cases e with
    | methodEnd result willRetry => rfl
    | _ => simp [noted, methodStarted, Event.retried]

theorem failed_noted (events : List Event) (s : ContextState) :
    (events.foldl noted s).failed = (events.filterMap Event.finalFailure?).foldl ResultMap.add s.failed := by
  induction events generalizing s with
  | nil => rfl
  | cons e events ih =>
    rw [List.foldl_cons, ih]
    cases e with
    | methodEnd result willRetry =>
      simp only [noted, methodEnded, List.filterMap_cons, Event.finalFailure?]
      split
      · rfl
      · rfl
    | _ => rfl

end ContextState

namespace Coordinator

/-- nothing has happened since the end -/
theorem rtakeWhile_of_ended {own : List Event} (h : ¬ own.getLast?.any (fun e => !e.isEnd) = true) :
    own.rtakeWhile (fun e => !e.isBoundary) = [] := by
  cases own using List.reverseRecOn with
  | nil => rfl
  | append_singleton own e =>
    rw [List.getLast?_concat] at h
    refine List.rtakeWhile_concat_neg _ _ _ fun hboundary => h ?_
    cases e with
    | contextEnd native => cases hboundary
    | _ => rfl

/-- the state of a context with these events -/
theorem running_of_own (own : List Event) :
    (own.foldl Entry.told {}).running =
      if own.getLast?.any (fun e => !e.isEnd) = true then
        some ((own.rtakeWhile fun e => !e.isBoundary).foldl ContextState.noted {})
      else none := by
  induction own using List.reverseRecOn with
  | nil => rfl
  | append_singleton own e ih =>
    -- a context that nobody started is known from its first method on
    have hstate : (own.foldl Entry.told {}).running.getD {} =
        (own.rtakeWhile fun e => !e.isBoundary).foldl ContextState.noted {} := by
      rw [ih]
      split
      · rfl
      · rename_i hended
        rw [rtakeWhile_of_ended hended]
        rfl
    rw [List.foldl_concat, List.getLast?_concat, List.rtakeWhile_concat]
    cases e with
    | contextStart context => rfl
    | methodStart context method =>
      have hinside : (!(Event.methodStart context method).isBoundary) = true := rfl
      rw [if_pos hinside, List.foldl_concat, ← hstate]
      rfl
    | methodEnd result willRetry =>
      have hinside : (!(Event.methodEnd result willRetry).isBoundary) = true := rfl
      rw [if_pos hinside, List.foldl_concat, ← hstate]
      rfl
    | contextEnd native =>
      simp only [Entry.told]
      cases hrunning : (own.foldl Entry.told {}).running with
      | none => exact hrunning
      | some s => rfl

theorem running_after (history : List Event) (context : String) :
    (after history).running.get? context =
      if runs context history = true then some ((stretch context history).foldl ContextState.noted {}) else none := by
  have hentry := congrArg Entry.running (entry_after history context)
  exact hentry.trans (running_of_own _)

theorem handleNeeded_after (history : List Event) (context : String) :
    (after history).handleNeeded? context =
      if runs context history = true then some ((stretch context history).any Event.retried) else none := by
  unfold handleNeeded?
  rw [running_after]
  split
  · rw [Option.map_some, ContextState.handleNeeded_noted, Bool.false_or]
  · rfl

/-- the flag is set exactly when a failure was answered to be retried -/
theorem retried_iff_answer (c : Coordinator) (e : Event) :
    e.retried = true ↔ ∃ result, (c.tell e).1 = .judged result .failedRetrying := by
  cases e with
  | methodEnd result willRetry =>
    simp only [Event.retried, tell, methodEnd, beq_iff_eq, Answer.judged.injEq, exists_eq_left']
  | _ => simp [Event.retried, tell]

theorem finalFailure?_iff_answer (c : Coordinator) (e : Event) (result : TestResult) :
    e.finalFailure? = some result ↔ (c.tell e).1 = .judged result .failedFinal := by
  cases e with
  | methodEnd r willRetry =>
    simp only [Event.finalFailure?, tell, methodEnd, beq_iff_eq, Option.ite_none_right_eq_some, Option.some.injEq,
      Answer.judged.injEq, and_comm]
  | _ => simp [Event.finalFailure?, tell]

/-! ## The end of a context -/

/-- the failures that were answered to be final in the stretch of a context -/
def finals (context : String) (history : List Event) : List TestResult :=
  (stretch context history).filterMap Event.finalFailure?

/-- the final state of the context has these maps -/
def FinalMaps (c : Coordinator) (context : String) (passed failed skipped : ResultMap) : Prop :=
  ∃ final, c.final? context = some final ∧ final.passed = passed ∧ final.failed = failed ∧ final.skipped = skipped

section End

variable {context : String} {history : List Event} {native : NativeResults}

theorem contextEnd_of_idle (hidle : runs context history = false) (hc : native.context = context) :
    (after history).contextEnd native = (native, after history) := by
  refine contextEnd_of_not_running ?_
  rw [hc, running_after, hidle]
  rfl

/-- the end of a running context leaves the final state of its stretch -/
theorem contextEnd_of_runs (hruns : runs context history = true) (hc : native.context = context) :
    let s := (stretch context history).foldl ContextState.noted {}
    ((after history).contextEnd native).1 = (s.ended native).1 ∧
      ((after history).contextEnd native).2.final? context = some (s.ended native).2 := by
  intro s
  have hrunning : (after history).running.get? native.context = some s := by
    rw [hc, running_after, if_pos hruns]
  rw [contextEnd_eq hrunning, hc]
  refine ⟨rfl, ?_⟩
  simp only [final?, Keyed.get?_set, if_true]

theorem contextEnd_not_retried (hruns : runs context history = true) (hc : native.context = context)
    (hretried : (stretch context history).any Event.retried = false) :
    ((after history).contextEnd native).1 = native ∧
      FinalMaps ((after history).contextEnd native).2 context native.passed native.failed native.skipped := by
  obtain ⟨hremaining, hfinal⟩ := contextEnd_of_runs hruns hc
  have hneeded : ¬ ((stretch context history).foldl ContextState.noted {}).handleNeeded = true := by
    rw [ContextState.handleNeeded_noted, hretried]
    exact Bool.false_ne_true
  rw [ContextState.ended_of_not_retried native hneeded] at hremaining hfinal
  exact ⟨hremaining, _, hfinal, rfl, rfl, rfl⟩

theorem contextEnd_retried (hruns : runs context history = true) (hc : native.context = context)
    (hretried : (stretch context history).any Event.retried = true) :
    ((after history).contextEnd native).1 = native.settled (finals context history) ∧
      FinalMaps ((after history).contextEnd native).2 context native.passed (.ofResults (finals context history))
        (native.settled (finals context history)).skipped := by
  obtain ⟨hremaining, hfinal⟩ := contextEnd_of_runs hruns hc
  have hneeded : ((stretch context history).foldl ContextState.noted {}).handleNeeded = true := by
    rw [ContextState.handleNeeded_noted, hretried, Bool.or_true]
  have hfailed : ((stretch context history).foldl ContextState.noted {}).failed = .ofResults (finals context history) :=
    ContextState.failed_noted _ _
  rw [ContextState.ended_of_retried native hneeded, hfailed, reconcile_ofResults] at hremaining hfinal
  exact ⟨hremaining, _, hfinal, rfl, rfl, rfl⟩

end End

/-- **A context is a function of its own history.** Whatever was told of other contexts, and in whatever order, all
that is answered and all that can be asked about a context is what its own events alone lead to. An event counts as
retried, or as a final failure, exactly if that is the answer to it, whenever it is told. While a context runs, it needs
handling exactly when a failure was answered to be retried since it was started. The end of a context that does not run
changes nothing. The end of a running one leaves the runner's results as they are when nothing was retried; otherwise
there remain, of the failures, those with the key of a final failure and, of the skips, those of methods without a final
failure and without a pass. -/
theorem context_follows_own_history (history : List Event) (context : String) :
    let own := history.filter (Event.about context)
    let retried := (stretch context history).any Event.retried
    ((∀ e : Event, e.context = context → ((after history).tell e).1 = ((after own).tell e).1) ∧
      (after history).handleNeeded? context = (after own).handleNeeded? context ∧
      (∀ method, (after history).methodState? context method = (after own).methodState? context method) ∧
      (after history).final? context = (after own).final? context) ∧
    (∀ (c : Coordinator) (e : Event),
      (e.retried = true ↔ ∃ result, (c.tell e).1 = .judged result .failedRetrying) ∧
      ∀ result, e.finalFailure? = some result ↔ (c.tell e).1 = .judged result .failedFinal) ∧
    (after history).handleNeeded? context = (if runs context history = true then some retried else none) ∧
    ∀ native : NativeResults, native.context = context →
      (runs context history = false → (after history).contextEnd native = (native, after history)) ∧
      (runs context history = true → retried = false →
        ((after history).contextEnd native).1 = native ∧
          FinalMaps ((after history).contextEnd native).2 context native.passed native.failed native.skipped) ∧
      (runs context history = true → retried = true →
        ((after history).contextEnd native).1 = native.settled (finals context history) ∧
          FinalMaps ((after history).contextEnd native).2 context native.passed (.ofResults (finals context history))
            (native.settled (finals context history)).skipped) := by
  intro own retried
  have hentry : (after own).entry context = (after history).entry context := entry_after_own history context
  have hrunning := congrArg Entry.running hentry
  refine ⟨⟨fun e he => ?_, ?_, fun method => ?_, (congrArg Entry.final hentry).symm⟩,
    fun c e => ⟨retried_iff_answer c e, finalFailure?_iff_answer c e⟩, handleNeeded_after history context,
    fun native hc => ⟨fun hidle => contextEnd_of_idle hidle hc,
      fun hruns hretried => contextEnd_not_retried hruns hc hretried,
      fun hruns hretried => contextEnd_retried hruns hc hretried⟩⟩
  · rw [answer_tell, answer_tell, he, hentry]
  · exact congrArg (Option.map ContextState.handleNeeded) hrunning.symm
  · exact congrArg (fun k => k.bind fun s => s.methods.get? method) hrunning.symm

/-- an execution of a test in a context -/
def execution (context method : String) (status : TestStatus) (retry : UInt32) (endMillis : Int64) : TestResult :=
  { method := method, context := context, status := status, retry := retry, startMillis := 0, endMillis := endMillis }

/-- two contexts at once: in one of them a login fails twice, and the other was never started -/
def twoContexts : List Event :=
  [.contextStart "web", .methodStart "web" "login", .methodStart "api" "ping",
    .methodEnd (execution "web" "login" .failure 0 10) true, .methodEnd (execution "api" "ping" .failure 0 10) false,
    .methodStart "web" "login", .methodEnd (execution "web" "login" .failure 1 20) false]

/-- the results of the runner: the login that was retried counts among failures and skips -/
def webResults : NativeResults :=
  { context := "web"
    failed := ⟨[execution "web" "login" .failure 0 10, execution "web" "login" .failure 1 20]⟩
    skipped := ⟨[execution "web" "login" .skip 0 10, execution "web" "search" .skip 0 11]⟩ }

/-- the second failure of the login remains, and the skip that was none of its attempts -/
theorem web_ends_beside_api :
    (after twoContexts).handleNeeded? "web" = some true ∧ (after twoContexts).handleNeeded? "api" = some false ∧
      ((after twoContexts).contextEnd webResults).1 =
        { webResults with
          failed := ⟨[execution "web" "login" .failure 1 20]⟩, skipped := ⟨[execution "web" "search" .skip 0 11]⟩ } :=
  ⟨(context_follows_own_history twoContexts "web").2.2.1.trans (by decide),
    (context_follows_own_history twoContexts "api").2.2.1.trans (by decide),
    (((context_follows_own_history twoContexts "web").2.2.2 webResults rfl).2.2 (by decide) (by decide)).1.trans
      (by decide)⟩

end Coordinator

end TestTrail
