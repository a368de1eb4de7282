/-
Result maps keep the order of first use.

A map is used by adding results, by taking out those of a method, and by keeping those that pass. `stay` follows one key
through a history and knows nothing of the others: when the key came in, and its newest result. `arrival` is what is left
of the use at some time: the newest result of the key that came in there, if it has stayed since.

Read off from the first use to the last one, the arrivals are the map (`results_after`). So a map holds the newest result
of each key that is still there, in the order in which the keys came; `map_in_order` puts this together with the answers
that a map gives.
-/
import TestTrail.Retry.ResultMap
import Mathlib.Data.List.Basic
import Mathlib.Data.List.Induction
import Mathlib.Data.List.Nodup

namespace TestTrail.ResultMap

/-- What is done with a map. Results of a map differ from one another, so a function on results can decide about each of
them in any way. -/
inductive Use where
  | add (result : TestResult)
  | removeMethod (method : String)
  | retain (keep : TestResult → Bool)

def use (m : ResultMap) : Use → ResultMap
  | .add r => m.add r
  | .removeMethod method => (m.takeMethod method).1
  | .retain keep => (m.retain keep).1

/-- the map behind a history that begins with the empty one -/
def after (uses : List Use) : ResultMap := uses.foldl use {}

theorem after_concat (uses : List Use) (u : Use) : after (uses ++ [u]) = (after uses).use u := by
  simp [after]

/-! ## One key -/

/-- a key that is in the map: the time of its first add since it was last taken out, and its newest result -/
structure Stay where
  since : Nat
  newest : TestResult
  deriving DecidableEq

/-- the stay of a key behind a use that is made at a time -/
def stayBehind (key : ResultKey) (time : Nat) (before : Option Stay) : Use → Option Stay
  | .add r => if r.key = key then some ⟨(before.map Stay.since).getD time, r⟩ else before
  | .removeMethod method => if key.method = method then none else before
  | .retain keep => before.filter fun s => keep s.newest

def stay (key : ResultKey) (uses : List Use) : Option Stay :=
  uses.zipIdx.foldl (fun before (u, time) => stayBehind key time before u) none

/-- the newest result of the key that came in at a time, if it has stayed since -/
def arrival (uses : List Use) (time : Nat) : Option TestResult :=
  match uses[time]? with
  | some (.add r) => (stay r.key uses).bind fun s => if s.since = time then some s.newest else none
  | _ => none

/-- the arrivals from the first use to the last one -/
def arrivals (uses : List Use) : List TestResult := (List.range uses.length).filterMap (arrival uses)

theorem stay_concat (key : ResultKey) (uses : List Use) (u : Use) :
    stay key (uses ++ [u]) = stayBehind key uses.length (stay key uses) u := by
  simp [stay, List.zipIdx_append]

/-- a stay is one of the key, and began with an add of it -/
theorem began_of_stay {key : ResultKey} {uses : List Use} {s : Stay} (h : stay key uses = some s) :
    s.newest.key = key ∧ ∃ first, uses[s.since]? = some (.add first) ∧ first.key = key := by
  induction uses using List.reverseRecOn generalizing s with
  | nil => cases h
  | append_singleton uses u ih =>
    rw [stay_concat] at h
    -- a stay that began before this use is a stay of the shorter history
    have hbefore : ∀ {t : Stay}, stay key uses = some t →
        t.newest.key = key ∧ ∃ first, (uses ++ [u])[t.since]? = some (.add first) ∧ first.key = key := by
      intro t ht
      obtain ⟨hkey, first, hfirst, hfirstKey⟩ := ih ht
      refine ⟨hkey, first, ?_, hfirstKey⟩
      rw [List.getElem?_append_left (List.getElem?_eq_some_iff.1 hfirst).1, hfirst]
    cases u with
    | add r =>
      simp only [stayBehind] at h
      split at h
      · rename_i hr
        cases h
        refine ⟨hr, ?_⟩
        cases hs : stay key uses with
        | none => exact ⟨r, by simp, hr⟩
        | some t => exact (hbefore hs).2
      · exact hbefore h
    | removeMethod method =>
      simp only [stayBehind] at h
      split at h
      · cases h
      · exact hbefore h
    | retain keep => exact hbefore (Option.filter_eq_some_iff.1 h).1

theorem since_lt {key : ResultKey} {uses : List Use} {s : Stay} (h : stay key uses = some s) :
    s.since < uses.length := by
  obtain ⟨-, first, hfirst, -⟩ := began_of_stay h
  exact (List.getElem?_eq_some_iff.1 hfirst).1

theorem arrival_eq_some_iff {uses : List Use} {time : Nat} {r : TestResult} :
    arrival uses time = some r ↔ stay r.key uses = some ⟨time, r⟩ := by
  unfold arrival
  constructor
  · intro h
    split at h
    · rename_i first hfirst
      obtain ⟨s, hs, hnewest⟩ := Option.bind_eq_some_iff.1 h
      split at hnewest
      · rename_i htime
        obtain rfl := Option.some.inj hnewest
        rw [(began_of_stay hs).1, hs, ← htime]
      · cases hnewest
    · cases h
  · intro h
    obtain ⟨-, first, hfirst, hkey⟩ := began_of_stay h
    simp only at hfirst
    rw [hfirst]
    simp only [hkey, h, Option.bind_some, if_true]

theorem mem_arrivals {uses : List Use} {r : TestResult} :
    r ∈ arrivals uses ↔ ∃ time, stay r.key uses = some ⟨time, r⟩ := by
  unfold arrivals
  simp only [List.mem_filterMap, List.mem_range, arrival_eq_some_iff]
  exact ⟨fun ⟨time, _, h⟩ => ⟨time, h⟩, fun ⟨time, h⟩ => ⟨time, since_lt h, h⟩⟩

/-- two results of one key would have arrived at the same time -/
theorem nodup_keys_arrivals (uses : List Use) : ((arrivals uses).map TestResult.key).Nodup := by
  unfold arrivals
  rw [List.nodup_iff_pairwise_ne, List.pairwise_map, List.pairwise_filterMap]
  refine List.pairwise_lt_range.imp fun {i j} hlt r hr s hs hkey => ?_
  rw [arrival_eq_some_iff] at hr hs
  rw [hkey, hs] at hr
  exact Nat.ne_of_gt hlt (congrArg Stay.since (Option.some.inj hr))

/-! ## All keys -/

/-- what a use makes of a result in the map -/
def survivor : Use → TestResult → Option TestResult
  | .add r, x => some (if x.key = r.key then r else x)
  | .removeMethod method, x => if x.method = method then none else some x
  | .retain keep, x => if keep x then some x else none

theorem stayBehind_some {key : ResultKey} {s : Stay} (hs : s.newest.key = key) (time : Nat) (u : Use) :
    stayBehind key time (some s) u = (survivor u s.newest).map fun x => ⟨s.since, x⟩ := by
  subst hs
  cases u with
  | add r =>
    by_cases hr : r.key = s.newest.key
    · simp [stayBehind, survivor, hr]
    · simp [stayBehind, survivor, hr, Ne.symm hr]
  | removeMethod method =>
    by_cases hm : s.newest.method = method
    · simp [stayBehind, survivor, TestResult.key, hm]
    · simp [stayBehind, survivor, TestResult.key, hm]
  | retain keep =>
    by_cases hk : keep s.newest = true
    · simp [stayBehind, survivor, hk]
    · simp [stayBehind, survivor, hk]

/-- a key that is not there comes in at the time of the use, if at all -/
theorem since_of_stayBehind_none {key : ResultKey} {time : Nat} {u : Use} {s : Stay}
    (h : stayBehind key time none u = some s) : s.since = time := by
  cases u with
  | add r =>
    simp only [stayBehind] at h
    split at h
    · cases h
      rfl
    · cases h
  | removeMethod method => simp [stayBehind] at h
  | retain keep => simp [stayBehind] at h

/-- an earlier arrival behind one more use -/
theorem arrival_concat {uses : List Use} {time : Nat} (htime : time < uses.length) (u : Use) :
    arrival (uses ++ [u]) time = (arrival uses time).bind (survivor u) := by
  unfold arrival
  rw [List.getElem?_append_left htime]
  split
  · rename_i first hfirst
    rw [stay_concat]
    cases hs : stay first.key uses with
    | none =>
      refine Option.eq_none_iff_forall_ne_some.2 fun x hx => ?_
      obtain ⟨s, hnow, hnewest⟩ := Option.bind_eq_some_iff.1 hx
      rw [if_neg] at hnewest
      · cases hnewest
      · rw [since_of_stayBehind_none hnow]
        exact Nat.ne_of_gt htime
    | some s =>
      rw [stayBehind_some (began_of_stay hs).1]
      by_cases hsince : s.since = time
      · cases hnow : survivor u s.newest <;> simp [hsince, hnow]
      · cases hnow : survivor u s.newest <;> simp [hsince]
  · rfl

theorem arrivals_concat (uses : List Use) (u : Use) :
    arrivals (uses ++ [u]) =
      (arrivals uses).filterMap (survivor u) ++ (arrival (uses ++ [u]) uses.length).toList := by
  have hearlier : (List.range uses.length).filterMap (arrival (uses ++ [u])) =
      (List.range uses.length).filterMap fun time => (arrival uses time).bind (survivor u) :=
    List.filterMap_congr fun time htime => arrival_concat (List.mem_range.1 htime) u
  unfold arrivals
  rw [List.length_append, List.length_singleton, List.range_succ, List.filterMap_append, hearlier,
    List.filterMap_filterMap]
  rfl

/-- what arrives with a use: the result that it adds, if its key is new -/
theorem arrival_concat_length (uses : List Use) (u : Use) :
    arrival (uses ++ [u]) uses.length =
      match u with
      | .add r => if (stay r.key uses).isNone then some r else none
      | _ => none := by
  unfold arrival
  rw [List.getElem?_concat_length]
  cases u with
  | add r =>
    simp only [stay_concat, stayBehind, if_true]
    cases hs : stay r.key uses with
    | none => simp
    | some s => simp [Nat.ne_of_lt (since_lt hs)]
  | removeMethod method => rfl
  | retain keep => rfl

/-- a use of a map whose keys differ -/
theorem results_use {m : ResultMap} (hn : (m.results.map TestResult.key).Nodup) (u : Use) :
    (m.use u).results = m.results.filterMap (survivor u) ++
      match u with
      | .add r => if r.key ∈ m.results.map TestResult.key then [] else [r]
      | _ => [] := by
  cases u with
  | add r =>
    have hall : m.results.filterMap (survivor (.add r)) = m.results.map fun x => if x.key = r.key then r else x := by
      rw [← List.filterMap_eq_map']
      rfl
    simp only [use, add]
    rw [hall]
    by_cases hr : r.key ∈ m.results.map TestResult.key
    · obtain ⟨x, hx, hk⟩ := List.mem_map.1 hr
      rw [if_pos hr, List.append_nil, addTo_of_known r m.results hn ⟨x, hx, hk⟩]
    · have hnew : ∀ x ∈ m.results, x.key ≠ r.key := fun x hx hk => hr (List.mem_map.2 ⟨x, hx, hk⟩)
      rw [if_neg hr, addTo_of_new r m.results hnew, List.map_congr_left fun x hx => if_neg (hnew x hx), List.map_id']
  | removeMethod method =>
    rw [List.append_nil]
    simp only [use, takeMethod, removeMethod, ← List.filterMap_eq_filter]
    refine List.filterMap_congr fun x _ => ?_
    by_cases hx : x.method = method <;> simp [survivor, Option.guard, hx]
  | retain keep =>
    rw [List.append_nil]
    simp only [use, retain, ← List.filterMap_eq_filter]
    refine List.filterMap_congr fun x _ => ?_
    by_cases hx : keep x = true <;> simp [survivor, Option.guard, hx]

/-- **The map is what has arrived.** -/
theorem results_after (uses : List Use) : (after uses).results = arrivals uses := by
  induction uses using List.reverseRecOn with
  | nil => rfl
  | append_singleton uses u ih =>
    have hn : ((after uses).results.map TestResult.key).Nodup := by
      rw [ih]
      exact nodup_keys_arrivals uses
    rw [after_concat, results_use hn, arrivals_concat, ih, arrival_concat_length]
    congr 1
    cases u with
    | add r =>
      have hkey : r.key ∈ (arrivals uses).map TestResult.key ↔ (stay r.key uses).isSome = true := by
        rw [List.mem_map, Option.isSome_iff_exists]
        constructor
        · rintro ⟨x, hx, hk⟩
          obtain ⟨time, htime⟩ := mem_arrivals.1 hx
          exact ⟨_, hk ▸ htime⟩
        · rintro ⟨s, hs⟩
          have hnewest : s.newest.key = r.key := (began_of_stay hs).1
          exact ⟨s.newest, mem_arrivals.2 ⟨s.since, hnewest ▸ hs⟩, hnewest⟩
      cases hs : stay r.key uses with
      | none => simp [hkey, hs]
      | some s => simp [hkey, hs]
    | removeMethod method => rfl
    | retain keep => rfl

/-! ## Answers -/

/-- a list cut in two by a predicate, both parts in the order of the list -/
structure Parted (keep : TestResult → Bool) (all kept removed : List TestResult) : Prop where
  passed : ∀ r ∈ kept, keep r = true
  refused : ∀ r ∈ removed, keep r = false
  together : (kept ++ removed).Perm all
  keptOrder : kept.Sublist all
  removedOrder : removed.Sublist all

theorem parted_retain (m : ResultMap) (keep : TestResult → Bool) :
    Parted keep m.results (m.retain keep).1.results (m.retain keep).2 where
  passed r hr := (List.mem_filter.1 hr).2
  refused r hr := by simpa using (List.mem_filter.1 hr).2
  together := List.filter_append_perm keep m.results
  keptOrder := List.filter_sublist
  removedOrder := List.filter_sublist

/-- as many are taken out as the method has results, and all others stay -/
theorem takeMethod_count (m : ResultMap) (method : String) :
    (m.takeMethod method).2 = m.results.countP (fun r => r.method = method) ∧
      (m.takeMethod method).2 + (m.takeMethod method).1.size = m.size := by
  have htotal := List.length_eq_countP_add_countP (p := fun r : TestResult => decide (r.method = method)) (l := m.results)
  have hrest : (m.removeMethod method).results.length =
      m.results.countP fun r => !decide (r.method = method) := by
    rw [List.countP_eq_length_filter]
    rfl
  unfold takeMethod size
  simp only [hrest]
  simp only [Bool.not_eq_true, Bool.decide_eq_false] at htotal
  omega

/-- the names of a list, each once, in the order of their first occurrences -/
structure FirstOccurrences (names firsts : List String) : Prop where
  once : firsts.Nodup
  same : ∀ name, name ∈ firsts ↔ name ∈ names
  order : firsts.Pairwise fun a b => names.idxOf a < names.idxOf b

theorem FirstOccurrences.concat {names firsts : List String} (h : FirstOccurrences names firsts) (x : String) :
    FirstOccurrences (names ++ [x]) (if firsts.contains x then firsts else firsts ++ [x]) := by
  have hindex : ∀ a ∈ firsts, (names ++ [x]).idxOf a = names.idxOf a := fun a ha =>
    List.idxOf_append_of_mem ((h.same a).1 ha)
  have horder : firsts.Pairwise fun a b => (names ++ [x]).idxOf a < (names ++ [x]).idxOf b :=
    h.order.imp_of_mem fun {a b} ha hb hlt => by rwa [hindex a ha, hindex b hb]
  by_cases hx : x ∈ firsts
  · rw [if_pos (List.contains_iff_mem.2 hx)]
    refine ⟨h.once, fun name => ?_, horder⟩
    rw [List.mem_append, List.mem_singleton, h.same]
    refine ⟨Or.inl, fun hname => hname.elim id ?_⟩
    rintro rfl
    exact (h.same name).1 hx
  · rw [if_neg (mt List.contains_iff_mem.1 hx)]
    have hnew : x ∉ names := mt (h.same x).2 hx
    refine ⟨?_, fun name => ?_, ?_⟩
    · refine List.nodup_append.2 ⟨h.once, List.nodup_singleton x, fun a ha b hb => ?_⟩
      rw [List.mem_singleton.1 hb]
      rintro rfl
      exact hx ha
    · rw [List.mem_append, List.mem_append, h.same]
    · refine List.pairwise_append.2 ⟨horder, List.pairwise_singleton _ x, fun a ha b hb => ?_⟩
      rw [List.mem_singleton.1 hb, hindex a ha, List.idxOf_append_of_notMem hnew]
      exact Nat.lt_add_right _ (List.idxOf_lt_length_of_mem ((h.same a).1 ha))

theorem methodsFrom_concat (seen : List String) (rs : List TestResult) (r : TestResult) :
    methodsFrom seen (rs ++ [r]) =
      if (methodsFrom seen rs).contains r.method then methodsFrom seen rs
      else methodsFrom seen rs ++ [r.method] := by
  induction rs generalizing seen with
  | nil => rfl
  | cons x rs ih => exact ih _

theorem firstOccurrences_methods (m : ResultMap) :
    FirstOccurrences (m.results.map TestResult.method) m.methods := by
  unfold methods
  induction m.results using List.reverseRecOn with
  | nil => exact ⟨List.nodup_nil, fun _ => Iff.rfl, List.Pairwise.nil⟩
  | append_singleton rs r ih =>
    rw [methodsFrom_concat, List.map_append]
    exact ih.concat r.method

/-- any decisions about the results of a map are those of a predicate -/
theorem exists_keep {rs : List TestResult} (hn : rs.Nodup) {decisions : List Bool}
    (hlength : decisions.length = rs.length) : ∃ keep, rs.map keep = decisions := by
  refine ⟨fun r => (decisions[rs.idxOf r]?).getD false, List.ext_getElem (by simp [hlength]) fun i hi hi' => ?_⟩
  rw [List.length_map] at hi
  simp [hn.idxOf_getElem i hi, hi']

/-- **A map is insertion-ordered.** Behind any history of adding results, taking out those of a method and keeping those
that pass, from the empty map on,

* no two results have the same key;
* the results are, in the order in which the keys first came in since they were last taken out, the newest result of
  each key that is still there;
* taking out a method answers the number of its results, which is by how much the map has shrunk;
* keeping results answers exactly those that are not kept, and both parts keep the order; any decisions about the results
  can be made like this;
* the methods are listed once each, in the order of their first results. -/
theorem map_in_order (uses : List Use) :
    let m := after uses
    (m.results.map TestResult.key).Nodup ∧
      m.results = arrivals uses ∧
      (∀ method, (m.takeMethod method).2 = m.results.countP (fun r => r.method = method) ∧
        (m.takeMethod method).2 + (m.takeMethod method).1.size = m.size) ∧
      (∀ keep, Parted keep m.results (m.retain keep).1.results (m.retain keep).2) ∧
      (∀ decisions : List Bool, decisions.length = m.size → ∃ keep, m.results.map keep = decisions) ∧
      FirstOccurrences (m.results.map TestResult.method) m.methods := by
  intro m
  have hresults : m.results = arrivals uses := results_after uses
  have hkeys : (m.results.map TestResult.key).Nodup := hresults ▸ nodup_keys_arrivals uses
  exact ⟨hkeys, hresults, m.takeMethod_count, m.parted_retain,
    fun _ hlength => exists_keep (List.Nodup.of_map _ hkeys) hlength, m.firstOccurrences_methods⟩

/-- a result that is added again keeps its place, one that was taken out in between comes last -/
example :
    let result (method : String) (status : TestStatus) : TestResult :=
      { method := method, context := "shop", status := status, retry := 0, startMillis := 0, endMillis := 1 }
    (after [.add (result "pay" .failure), .add (result "login" .failure), .add (result "search" .skip),
      .removeMethod "login", .add (result "pay" .success), .add (result "login" .success)]).results =
      [result "pay" .success, result "search" .skip, result "login" .success] := by
  decide

end TestTrail.ResultMap
