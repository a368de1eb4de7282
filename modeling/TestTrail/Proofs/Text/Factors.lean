/-
Masking replaces the leftmost longest secrets.

Factors cut a text into stretches that are kept and a secret behind each of them but the last. They are leftmost-longest
when every secret is the longest one that starts at its place, and no secret starts anywhere inside a stretch.

Masking finds such factors by one scan over a list in which longer secrets come first: the first of the list that starts
the text is the longest that does (`firstMatch?_eq_some`), since of two texts that start the same text the one with
fewer bytes has fewer characters. No other factors are leftmost-longest (`leftmostLongest_unique`). So what masking does
is settled by the set of secrets, and without stars in the secrets there is nothing left to mask.
-/
import TestTrail.Proofs.Text.Masking

namespace TestTrail.Text

/-- stretches of a text that are kept, with a secret behind each but the last -/
inductive Factors where
  | last (kept : List Char)
  | secret (kept s : List Char) (rest : Factors)

namespace Factors

/-- the text that was cut -/
def text : Factors → List Char
  | last kept => kept
  | secret kept s rest => kept ++ (s ++ rest.text)

/-- the text with stars for every secret -/
def starred : Factors → List Char
  | last kept => kept
  | secret kept _ rest => kept ++ (stars ++ rest.starred)

/-- one more character at the front -/
def keep (c : Char) : Factors → Factors
  | last kept => last (c :: kept)
  | secret kept s rest => secret (c :: kept) s rest

end Factors

/-- no secret starts inside the stretch; `rest` is what follows it -/
def Kept (secrets : List (List Char)) (kept rest : List Char) : Prop :=
  ∀ place, place <:+ kept → place ≠ [] → ∀ s ∈ secrets, s ≠ [] → ¬ s <+: place ++ rest

/-- the longest of the secrets that start the text -/
structure LongestAt (secrets : List (List Char)) (s text : List Char) : Prop where
  mem : s ∈ secrets
  nonempty : s ≠ []
  starts : s <+: text
  longest : ∀ t ∈ secrets, t <+: text → t.length ≤ s.length

/-- every secret is the longest one at its place, and none starts inside a stretch that is kept -/
def Factors.LeftmostLongest (secrets : List (List Char)) : Factors → Prop
  | last kept => Kept secrets kept []
  | secret kept s rest =>
    Kept secrets kept (s ++ rest.text) ∧ LongestAt secrets s (s ++ rest.text) ∧ rest.LeftmostLongest secrets

variable {secrets : List (List Char)} {s t text kept rest : List Char}

/-! ## The order of the list -/

theorem byteLength_append (s t : List Char) : byteLength (s ++ t) = byteLength s + byteLength t := by
  induction s with
  | nil => exact (Nat.zero_add _).symm
  | cons c s ih => rw [List.cons_append, byteLength, byteLength, ih, Nat.add_assoc]

theorem byteLength_pos (h : s ≠ []) : 0 < byteLength s := by
  obtain ⟨c, cs, rfl⟩ := List.exists_cons_of_ne_nil h
  exact Nat.add_pos_left c.utf8Size_pos _

/-- of two texts that start the same text, the one with no more bytes has no more characters -/
theorem length_le_of_byteLength_le (hs : s <+: text) (ht : t <+: text) (h : byteLength t ≤ byteLength s) :
    t.length ≤ s.length := by
  by_contra hlt
  obtain ⟨more, rfl⟩ := List.prefix_of_prefix_length_le hs ht (Nat.le_of_not_le hlt)
  have hmore : more ≠ [] := by
    rintro rfl
    simp at hlt
  have hpos := byteLength_pos hmore
  rw [byteLength_append] at h
  omega

theorem pairwise_insertByLength (s : List Char) {list : List (List Char)}
    (h : list.Pairwise fun s t => byteLength t ≤ byteLength s) :
    (insertByLength s list).Pairwise fun s t => byteLength t ≤ byteLength s := by
  induction list with
  | nil => exact List.pairwise_singleton _ s
  | cons t list ih =>
    obtain ⟨ht, hlist⟩ := List.pairwise_cons.1 h
    rw [insertByLength]
    split_ifs with hle
    · refine List.pairwise_cons.2 ⟨?_, h⟩
      intro x hx
      rcases List.mem_cons.1 hx with rfl | hmem
      · exact hle
      · exact (ht x hmem).trans hle
    · refine List.pairwise_cons.2 ⟨?_, ih hlist⟩
      intro x hx
      rcases (mem_insertByLength x s list).1 hx with rfl | hmem
      · exact Nat.le_of_not_le hle
      · exact ht x hmem

theorem eraseRepsLoop_sublist (s : List Char) (list before : List (List Char)) :
    (List.eraseRepsBy.loop (· == ·) s list before).Sublist (before.reverse ++ s :: list) := by
  induction list generalizing s before with
  | nil => simp [List.eraseRepsBy.loop]
  | cons t list ih =>
    rw [List.eraseRepsBy.loop]
    cases hst : s == t with
    | true =>
      have hsub := ih s before
      rw [eq_of_beq hst] at hsub ⊢
      exact hsub.trans ((List.Sublist.refl _).append (List.sublist_cons_self t (t :: list)))
    | false =>
      have hsub := ih t (s :: before)
      rwa [List.reverse_cons, List.append_assoc] at hsub

/-- longer secrets come first -/
theorem pairwise_listed (secrets : List (List Char)) :
    (listed secrets).Pairwise fun s t => byteLength t ≤ byteLength s := by
  have hinserted : ∀ list : List (List Char),
      (list.foldr insertByLength []).Pairwise fun s t => byteLength t ≤ byteLength s := by
    intro list
    induction list with
    | nil => exact List.Pairwise.nil
    | cons s list ih => exact pairwise_insertByLength s ih
  have hsub : ∀ list : List (List Char), list.eraseReps.Sublist list := by
    intro list
    cases list with
    | nil => exact List.Sublist.refl _
    | cons s list => exact eraseRepsLoop_sublist s list []
  exact (hinserted _).sublist (hsub _)

/-! ## One place -/

theorem LongestAt.eq (hs : LongestAt secrets s text) (ht : LongestAt secrets t text) : s = t := by
  have hlength := Nat.le_antisymm (ht.longest s hs.mem hs.starts) (hs.longest t ht.mem ht.starts)
  exact List.IsPrefix.eq_of_length (List.prefix_of_prefix_length_le hs.starts ht.starts hlength.le) hlength

theorem firstMatch?_listed_eq_none :
    firstMatch? (listed secrets) text = none ↔ ∀ s ∈ secrets, s ≠ [] → ¬ s <+: text := by
  rw [firstMatch?_eq_none]
  simp only [mem_listed, and_imp]

theorem longestAt_of_firstMatch? (h : firstMatch? (listed secrets) text = some s) : LongestAt secrets s text := by
  obtain ⟨hstarts, before, behind, hlisted, hbefore⟩ := List.find?_eq_some_iff_append.1 h
  obtain ⟨hmem, hne⟩ := mem_listed.1 (List.mem_of_find?_eq_some h)
  have hstart : s <+: text := List.isPrefixOf_iff_prefix.1 hstarts
  refine ⟨hmem, hne, hstart, ?_⟩
  intro t ht htext
  by_cases hnil : t = []
  · rw [hnil]
    exact Nat.zero_le _
  · have hplace : t ∈ before ++ s :: behind := hlisted ▸ mem_listed.2 ⟨ht, hnil⟩
    have hsorted := pairwise_listed secrets
    rw [hlisted] at hsorted
    rcases List.mem_append.1 hplace with hin | hin
    · have hnot := hbefore t hin
      rw [List.isPrefixOf_iff_prefix.2 htext] at hnot
      cases hnot
    · rcases List.mem_cons.1 hin with rfl | hin
      · exact le_rfl
      · have hle := (List.pairwise_cons.1 (List.pairwise_append.1 hsorted).2.1).1 t hin
        exact length_le_of_byteLength_le hstart htext hle

/-- the secret that is found at a place is the longest one there -/
theorem firstMatch?_eq_some : firstMatch? (listed secrets) text = some s ↔ LongestAt secrets s text := by
  constructor
  · exact longestAt_of_firstMatch?
  · intro h
    cases hmatch : firstMatch? (listed secrets) text with
    | none => exact absurd h.starts (firstMatch?_listed_eq_none.1 hmatch s h.mem h.nonempty)
    | some t => rw [(longestAt_of_firstMatch? hmatch).eq h]

/-! ## The scan -/

theorem maskFrom_skip (list : List (List Char)) (skip : Nat) (cs : List Char) :
    maskFrom list skip cs = maskFrom list 0 (cs.drop skip) := by
  induction cs generalizing skip with
  | nil => rw [List.drop_nil, maskFrom, maskFrom]
  | cons c cs ih =>
    cases skip with
    | zero => rfl
    | succ skip => exact ih skip

/-- a stretch that is kept stays as it is -/
theorem maskFrom_kept (h : Kept secrets kept rest) :
    maskFrom (listed secrets) 0 (kept ++ rest) = kept ++ maskFrom (listed secrets) 0 rest := by
  induction kept with
  | nil => rfl
  | cons c kept ih =>
    have hnone : firstMatch? (listed secrets) (c :: (kept ++ rest)) = none :=
      firstMatch?_listed_eq_none.2 (h (c :: kept) (List.suffix_refl _) (List.cons_ne_nil c kept))
    have hkept : Kept secrets kept rest := fun place hplace => h place (hplace.trans (List.suffix_cons c kept))
    rw [List.cons_append, maskFrom, hnone, List.cons_append]
    exact congrArg (c :: ·) (ih hkept)

/-- the longest secret at a place gives way to stars -/
theorem maskFrom_secret (h : LongestAt secrets s (s ++ rest)) :
    maskFrom (listed secrets) 0 (s ++ rest) = stars ++ maskFrom (listed secrets) 0 rest := by
  have hmatch := firstMatch?_eq_some.2 h
  obtain ⟨c, cs, rfl⟩ := List.exists_cons_of_ne_nil h.nonempty
  rw [List.cons_append] at hmatch ⊢
  rw [maskFrom, hmatch]
  simp only [List.length_cons, Nat.add_sub_cancel]
  rw [maskFrom_skip, List.drop_left]

/-- masking writes stars for the secrets of leftmost-longest factors -/
theorem maskChars_text {f : Factors} (h : f.LeftmostLongest secrets) : maskChars secrets f.text = f.starred := by
  unfold maskChars
  induction f with
  | last kept =>
    have hkept : maskFrom (listed secrets) 0 (kept ++ []) = kept ++ maskFrom (listed secrets) 0 [] := maskFrom_kept h
    rwa [List.append_nil, maskFrom, List.append_nil] at hkept
  | secret kept s rest ih =>
    obtain ⟨hkept, hlongest, hrest⟩ := h
    rw [Factors.text, Factors.starred, maskFrom_kept hkept, maskFrom_secret hlongest, ih hrest]

/-! ## Existence and uniqueness -/

theorem text_keep (c : Char) (f : Factors) : (f.keep c).text = c :: f.text := by
  cases f with
  | _ => rfl

theorem Kept.cons {c : Char} (h : Kept secrets kept rest)
    (hnone : ∀ s ∈ secrets, s ≠ [] → ¬ s <+: c :: (kept ++ rest)) : Kept secrets (c :: kept) rest := by
  intro place hplace hne
  rcases List.suffix_cons_iff.1 hplace with rfl | hplace
  · exact hnone
  · exact h place hplace hne

theorem leftmostLongest_keep {c : Char} {f : Factors} (h : f.LeftmostLongest secrets)
    (hnone : ∀ s ∈ secrets, s ≠ [] → ¬ s <+: c :: f.text) : (f.keep c).LeftmostLongest secrets := by
  cases f with
  | last kept =>
    refine Kept.cons h ?_
    rwa [List.append_nil]
  | secret kept s rest =>
    obtain ⟨hkept, hlongest, hrest⟩ := h
    exact ⟨hkept.cons hnone, hlongest, hrest⟩

theorem exists_leftmostLongest (secrets : List (List Char)) (text : List Char) :
    ∃ f : Factors, f.text = text ∧ f.LeftmostLongest secrets := by
  induction hn : text.length using Nat.strong_induction_on generalizing text with
  | _ n ih =>
    cases text with
    | nil =>
      refine ⟨.last [], rfl, ?_⟩
      intro place hplace hne
      exact absurd (List.suffix_nil.1 hplace) hne
    | cons c cs =>
      cases hmatch : firstMatch? (listed secrets) (c :: cs) with
      | none =>
        obtain ⟨f, rfl, hf⟩ := ih cs.length (hn ▸ Nat.lt_succ_self _) cs rfl
        exact ⟨f.keep c, text_keep c f, leftmostLongest_keep hf (firstMatch?_listed_eq_none.1 hmatch)⟩
      | some s =>
        have hlongest := longestAt_of_firstMatch? hmatch
        obtain ⟨rest, hrest⟩ := hlongest.starts
        have hshorter : rest.length < n := by
          have hpos := List.length_pos_of_ne_nil hlongest.nonempty
          rw [← hn, ← hrest, List.length_append]
          omega
        obtain ⟨f, rfl, hf⟩ := ih rest.length hshorter rest rfl
        rw [← hrest] at hlongest ⊢
        refine ⟨.secret [] s f, rfl, ?_, hlongest, hf⟩
        intro place hplace hne
        exact absurd (List.suffix_nil.1 hplace) hne

/-- a stretch that is kept does not reach over the place of a secret -/
theorem Kept.length_le {more behind : List Char} (h : Kept secrets kept rest) (hmem : s ∈ secrets) (hne : s ≠ [])
    (heq : kept ++ rest = more ++ (s ++ behind)) : kept.length ≤ more.length := by
  by_contra hlt
  rcases List.append_eq_append_iff.1 heq with ⟨gap, hmore, -⟩ | ⟨place, hkept, hrest⟩
  · rw [hmore, List.length_append] at hlt
    omega
  · have hplace : place ≠ [] := by
      rintro rfl
      rw [hkept, List.append_nil] at hlt
      exact hlt le_rfl
    refine h place ⟨more, hkept.symm⟩ hplace s hmem hne ⟨behind, ?_⟩
    rw [hrest]

theorem leftmostLongest_unique {f g : Factors} (hf : f.LeftmostLongest secrets) (hg : g.LeftmostLongest secrets)
    (heq : f.text = g.text) : f = g := by
  induction f generalizing g with
  | last kept =>
    cases g with
    | last other => exact congrArg Factors.last heq
    | secret other s rest =>
      -- the secret would start inside the stretch that ends the text
      have hle := Kept.length_le hf hg.2.1.mem hg.2.1.nonempty ((List.append_nil kept).trans heq)
      have hlength := congrArg List.length heq
      have hpos := List.length_pos_of_ne_nil hg.2.1.nonempty
      simp only [Factors.text, List.length_append] at hlength
      omega
  | secret kept s rest ih =>
    obtain ⟨hkept, hlongest, hrest⟩ := hf
    cases g with
    | last other =>
      have hle := Kept.length_le hg hlongest.mem hlongest.nonempty
        ((List.append_nil other).trans heq.symm)
      have hlength := congrArg List.length heq
      have hpos := List.length_pos_of_ne_nil hlongest.nonempty
      simp only [Factors.text, List.length_append] at hlength
      omega
    | secret other t more =>
      obtain ⟨hother, hlongest', hmore⟩ := hg
      have hle := hkept.length_le hlongest'.mem hlongest'.nonempty heq
      have hge := hother.length_le hlongest.mem hlongest.nonempty heq.symm
      obtain ⟨rfl, hbehind⟩ := List.append_inj heq (Nat.le_antisymm hle hge)
      have hst : s = t := hlongest.eq (hbehind ▸ hlongest')
      subst hst
      rw [ih hrest hmore (List.append_cancel_left hbehind)]

/-! ## The law -/

theorem LongestAt.congr {others : List (List Char)} (h : ∀ t, t ≠ [] → (t ∈ others ↔ t ∈ secrets))
    (hs : LongestAt secrets s text) : LongestAt others s text := by
  refine ⟨(h s hs.nonempty).2 hs.mem, hs.nonempty, hs.starts, ?_⟩
  intro t ht htext
  by_cases hnil : t = []
  · rw [hnil]
    exact Nat.zero_le _
  · exact hs.longest t ((h t hnil).1 ht) htext

theorem Kept.congr {others : List (List Char)} (h : ∀ t, t ≠ [] → (t ∈ others ↔ t ∈ secrets))
    (hk : Kept secrets kept rest) : Kept others kept rest :=
  fun place hplace hne t ht htne => hk place hplace hne t ((h t htne).1 ht) htne

/-- which factors are leftmost-longest depends on the set of secrets that are not empty -/
theorem leftmostLongest_congr {others : List (List Char)} (h : ∀ t, t ≠ [] → (t ∈ others ↔ t ∈ secrets))
    {f : Factors} (hf : f.LeftmostLongest secrets) : f.LeftmostLongest others := by
  induction f with
  | last kept => exact Kept.congr h hf
  | secret kept s rest ih =>
    obtain ⟨hkept, hlongest, hrest⟩ := hf
    exact ⟨hkept.congr h, hlongest.congr h, ih hrest⟩

/-- masking depends on the set of secrets that are not empty -/
theorem maskChars_congr {others : List (List Char)} (h : ∀ t, t ≠ [] → (t ∈ others ↔ t ∈ secrets))
    (text : List Char) : maskChars others text = maskChars secrets text := by
  obtain ⟨f, rfl, hf⟩ := exists_leftmostLongest secrets text
  rw [maskChars_text hf, maskChars_text (leftmostLongest_congr h hf)]

theorem mem_map_toList (list : List String) : text ∈ list.map String.toList ↔ String.ofList text ∈ list := by
  rw [List.mem_map]
  constructor
  · rintro ⟨s, hs, rfl⟩
    rwa [String.ofList_toList]
  · exact fun hs => ⟨_, hs, String.toList_ofList⟩

theorem mask_congr {secrets others : List String} (h : ∀ s, s ≠ "" → (s ∈ others ↔ s ∈ secrets)) (text : String) :
    mask others text = mask secrets text := by
  refine congrArg String.ofList (maskChars_congr (fun t ht => ?_) text.toList)
  have ht' : String.ofList t ≠ "" := by simpa using ht
  rw [mem_map_toList, mem_map_toList]
  exact h _ ht'

/-- where no secret has a star in it, a masked text is one stretch to be kept -/
theorem kept_maskChars (hstar : ∀ s ∈ secrets, '*' ∉ s) (text : List Char) :
    Kept secrets (maskChars secrets text) [] := by
  intro place hplace _ s hmem hne hstart
  rw [List.append_nil] at hstart
  exact not_infix_mask hmem (hstar s hmem) hne text (hstart.isInfix.trans hplace.isInfix)

/-- **Masking replaces the leftmost longest secrets.** A text has exactly one leftmost-longest cut into stretches that
are kept and secrets, and masking writes stars for the secrets of this one. Hence the masked text depends on the set of
secrets that are not empty, and on nothing else about the list; and where no secret has a star in it, masking the masked
text again changes nothing. -/
theorem mask_leftmost_longest (secrets : List String) (text : String) :
    (∃! f : Factors, f.text = text.toList ∧ f.LeftmostLongest (secrets.map String.toList)) ∧
      (∀ f : Factors, f.text = text.toList → f.LeftmostLongest (secrets.map String.toList) →
        (mask secrets text).toList = f.starred) ∧
      (∀ others : List String, (∀ s, s ≠ "" → (s ∈ others ↔ s ∈ secrets)) → mask others text = mask secrets text) ∧
      ((∀ s ∈ secrets, '*' ∉ s.toList) → mask secrets (mask secrets text) = mask secrets text) := by
  obtain ⟨f, htext, hf⟩ := exists_leftmostLongest (secrets.map String.toList) text.toList
  have hmask : ∀ (list : List String) (g : Factors), g.text = text.toList →
      g.LeftmostLongest (list.map String.toList) → (mask list text).toList = g.starred := by
    intro list g hg hleft
    unfold mask
    rw [String.toList_ofList, ← hg, maskChars_text hleft]
  refine ⟨⟨f, ⟨htext, hf⟩, ?_⟩, hmask secrets, ?_, ?_⟩
  · rintro g ⟨hg, hleft⟩
    exact leftmostLongest_unique hleft hf (hg.trans htext.symm)
  · intro others hothers
    have hsame : ∀ t : List Char, t ≠ [] → (t ∈ others.map String.toList ↔ t ∈ secrets.map String.toList) := by
      intro t ht
      have ht' : String.ofList t ≠ "" := by simpa using ht
      rw [mem_map_toList, mem_map_toList]
      exact hothers _ ht'
    refine String.toList_inj.1 ?_
    rw [hmask others f htext (leftmostLongest_congr hsame hf), hmask secrets f htext hf]
  · intro hstar
    have hchars : ∀ s ∈ secrets.map String.toList, '*' ∉ s := by
      intro s hs
      obtain ⟨secret, hsecret, rfl⟩ := List.mem_map.1 hs
      exact hstar secret hsecret
    have hagain := maskChars_text (f := .last _) (kept_maskChars hchars text.toList)
    unfold mask
    rw [String.toList_ofList]
    exact congrArg String.ofList hagain

/-- The longer secret wins where both start, in any order of the list, and there is nothing left to mask behind it. -/
theorem mask_shared_start :
    (∀ s ∈ ["ab", "abcd", "ab"], '*' ∉ s.toList) ∧ mask ["ab", "abcd", "ab"] "xabcd ab" = "x****** ******" ∧
      mask ["abcd", "", "ab"] "xabcd ab" = "x****** ******" ∧
      mask ["ab", "abcd", "ab"] "x****** ******" = "x****** ******" ∧
      ∃ f : Factors, f.text = "xabcd ab".toList ∧ f.starred = "x****** ******".toList := by
  have hstar : ∀ s ∈ ["ab", "abcd", "ab"], '*' ∉ s.toList := by decide
  have hmasked : mask ["ab", "abcd", "ab"] "xabcd ab" = "x****** ******" := by decide
  have hset : ∀ s, s ≠ "" → (s ∈ ["abcd", "", "ab"] ↔ s ∈ ["ab", "abcd", "ab"]) := by
    intro s hs
    simp only [List.mem_cons, List.not_mem_nil, or_false]
    tauto
  obtain ⟨⟨f, ⟨htext, hf⟩, -⟩, hstarred, hothers, hagain⟩ := mask_leftmost_longest ["ab", "abcd", "ab"] "xabcd ab"
  have hsame := hothers ["abcd", "", "ab"] hset
  have hrepeated := hagain hstar
  rw [hmasked] at hsame hrepeated
  exact ⟨hstar, hmasked, hsame, hrepeated, f, htext, by rw [← hstarred f htext hf, hmasked]⟩

end TestTrail.Text
