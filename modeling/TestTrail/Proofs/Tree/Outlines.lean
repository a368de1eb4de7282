/-
What an outline tells about its forest.

The shape of a node is its marker, the number of its files and the shapes of its children. A reader takes an outline apart
again: of every line it looks at the indentation and at the first sign behind it (`lead`), and from the last line to the
first one it puts together what is indented deeper than a node and follows it (`place`). No text of a node can mislead
it, since texts come behind the sign, provided that none of them has a line feed.

`readShapes_outline`: the shapes of a forest are read from its outline. So forests with one outline have one shape
(`shapes_eq_of_outline_eq`), though not the same texts.
-/
import Mathlib.Data.List.Basic
import TestTrail.Proofs.Text.Moments
import TestTrail.Text.Pieces
import TestTrail.Tree.Outline

namespace TestTrail

open TestTrail.Text

/-- what an outline shows of a node and of the nodes below it -/
inductive Shape where
  | node (marker : Marker) (files : Nat) (children : List Shape)
  deriving Repr

/-! ## Lines -/

namespace Marker

def toChar : Marker → Char
  | passed => '-'
  | failed => 'x'
  | warning => '!'
  | error => 'E'
  | info => 'i'

def ofChar? : Char → Option Marker
  | '-' => some passed
  | 'x' => some failed
  | '!' => some warning
  | 'E' => some error
  | 'i' => some info
  | _ => none

theorem toList_sign (m : Marker) : m.sign.toList = [m.toChar] := by cases m <;> rfl

theorem ofChar?_toChar (m : Marker) : ofChar? m.toChar = some m := by cases m <;> rfl

theorem toChar_ne_blank (m : Marker) : m.toChar ≠ ' ' := by cases m <;> decide

theorem toChar_ne_lineFeed (m : Marker) : m.toChar ≠ '\n' := by cases m <;> decide

end Marker

namespace Outline

/-- how far a line is indented, and the marker behind that; the line of a file has none -/
def lead (line : List Char) : Nat × Option Marker :=
  ((line.takeWhile (· = ' ')).length, ((line.dropWhile (· = ' ')).head?).bind Marker.ofChar?)

/-- the lines of a text, each closed by a line feed -/
def lines (text : String) : List (List Char) := (pieces '\n' text.toList).dropLast

theorem lead_indented {c : Char} (hc : c ≠ ' ') (n : Nat) (rest : List Char) :
    lead (List.replicate n ' ' ++ c :: rest) = (n, Marker.ofChar? c) := by
  have hblanks : ∀ b ∈ List.replicate n ' ', decide (b = ' ') = true := fun b hb =>
    decide_eq_true (List.eq_of_mem_replicate hb)
  rw [lead, List.takeWhile_append_of_pos hblanks, List.dropWhile_append_of_pos hblanks,
    List.takeWhile_cons_of_neg (by simpa using hc), List.dropWhile_cons_of_neg (by simpa using hc), List.append_nil,
    List.length_replicate]
  rfl

/-- closed lines are cut again, when no line feed stands inside of them -/
theorem lines_join {ls : List String} (h : ∀ l ∈ ls, '\n' ∉ l.toList) :
    lines (String.join (ls.map (· ++ "\n"))) = ls.map String.toList := by
  have hpieces : pieces '\n' (String.join (ls.map (· ++ "\n"))).toList = ls.map String.toList ++ [[]] := by
    induction ls with
    | nil => rfl
    | cons l ls ih =>
      obtain ⟨hl, hls⟩ := List.forall_mem_cons.1 h
      have htext : (String.join ((l :: ls).map (· ++ "\n"))).toList =
          l.toList ++ '\n' :: (String.join (ls.map (· ++ "\n"))).toList := by
        simp [String.toList_join]
      rw [htext, pieces_append_sep hl, ih hls, List.map_cons, List.cons_append]
  rw [lines, hpieces, List.dropLast_concat]

end Outline

namespace Node

theorem toList_indent (depth : Nat) : (indent depth).toList = List.replicate (2 * depth) ' ' := by
  rw [indent, toList_pushn]
  rfl

theorem lead_headLine (depth : Nat) (n : Node) :
    Outline.lead (headLine depth n).toList = (2 * depth, some n.marker) := by
  rw [headLine]
  simp only [String.toList_append, toList_indent, Marker.toList_sign, List.append_assoc, List.cons_append, List.nil_append]
  rw [Outline.lead_indented n.marker.toChar_ne_blank, Marker.ofChar?_toChar]

theorem lead_fileLine (depth : Nat) (a : Attachment) :
    Outline.lead (fileLine depth a).toList = (2 * (depth + 1), none) := by
  have hline : (fileLine depth a).toList =
      List.replicate (2 * (depth + 1)) ' ' ++ '@' :: (' ' :: (a.label.toList ++ (": ".toList ++ a.path.toList))) := by
    rw [Nat.mul_succ, ← List.replicate_append_replicate]
    simp [fileLine, toList_indent]
  rw [hline, Outline.lead_indented (by decide)]
  rfl

/-! ## Texts without line feeds -/

/-- the texts that stand in the line of a node itself -/
def ownTexts (n : Node) : List String := n.name :: (n.exception.map RecordedFailure.message).toList

mutual

/-- the texts of a node, of its files and of the nodes below it -/
def texts : Node → List String
  | step h cs => (step h cs).ownTexts ++ h.attachments.flatMap (fun a => [a.label, a.path]) ++ forestTexts cs
  | action a => (action a).ownTexts
  | message m => (message m).ownTexts

def forestTexts : List Node → List String
  | [] => []
  | n :: ns => n.texts ++ forestTexts ns

end

theorem lineFeed_not_mem_indent (depth : Nat) : '\n' ∉ (indent depth).toList := by
  rw [toList_indent]
  exact fun h => absurd (List.eq_of_mem_replicate h) (by decide)

theorem lineFeed_not_mem_headLine {n : Node} (h : ∀ t ∈ n.ownTexts, '\n' ∉ t.toList) (depth : Nat) :
    '\n' ∉ (headLine depth n).toList := by
  obtain ⟨hname, hexception⟩ := List.forall_mem_cons.1 h
  have hsign : '\n' ∉ n.marker.sign.toList := by
    rw [Marker.toList_sign, List.mem_singleton]
    exact n.marker.toChar_ne_lineFeed.symm
  rw [headLine]
  cases he : n.exception with
  | none => simp [lineFeed_not_mem_indent, hsign, hname]
  | some e =>
    have hmessage : '\n' ∉ e.message.toList := hexception e.message (by simp [he])
    simp [lineFeed_not_mem_indent, hsign, hname, hmessage]

theorem lineFeed_not_mem_fileLine {a : Attachment} (hlabel : '\n' ∉ a.label.toList) (hpath : '\n' ∉ a.path.toList)
    (depth : Nat) : '\n' ∉ (fileLine depth a).toList := by
  simp [fileLine, lineFeed_not_mem_indent, hlabel, hpath]

mutual

theorem lineFeed_not_mem_outlineLines : ∀ (n : Node), (∀ t ∈ n.texts, '\n' ∉ t.toList) → ∀ depth,
    ∀ l ∈ outlineLines depth n, '\n' ∉ l.toList
  | step h cs, htexts, depth => by
    rw [texts, List.forall_mem_append, List.forall_mem_append] at htexts
    obtain ⟨⟨hown, hfiles⟩, hchildren⟩ := htexts
    rw [outlineLines, List.forall_mem_cons, List.forall_mem_append, List.forall_mem_map]
    refine ⟨lineFeed_not_mem_headLine hown depth, fun a ha => ?_, lineFeed_not_mem_forestLines cs hchildren (depth + 1)⟩
    exact lineFeed_not_mem_fileLine (hfiles a.label (List.mem_flatMap.2 ⟨a, ha, by simp⟩))
      (hfiles a.path (List.mem_flatMap.2 ⟨a, ha, by simp⟩)) depth
  | action a, htexts, depth => by
    rw [outlineLines, List.forall_mem_singleton]
    exact lineFeed_not_mem_headLine htexts depth
  | message m, htexts, depth => by
    rw [outlineLines, List.forall_mem_singleton]
    exact lineFeed_not_mem_headLine htexts depth

theorem lineFeed_not_mem_forestLines : ∀ (ns : List Node), (∀ t ∈ forestTexts ns, '\n' ∉ t.toList) → ∀ depth,
    ∀ l ∈ forestLines depth ns, '\n' ∉ l.toList
  | [], _, _ => fun l hl => absurd hl List.not_mem_nil
  | n :: ns, htexts, depth => by
    rw [forestTexts, List.forall_mem_append] at htexts
    rw [forestLines, List.forall_mem_append]
    exact ⟨lineFeed_not_mem_outlineLines n htexts.1 depth, lineFeed_not_mem_forestLines ns htexts.2 depth⟩

end

/-! ## Shapes -/

/-- what a marker tells: of a message its level, but information and logs are marked alike; of any other node whether it
failed -/
theorem marker_iff (n : Node) :
    (n.marker = .failed ↔ n.failed = true) ∧
      (n.marker = .passed ↔ n.failed = false ∧ ∀ m, n ≠ .message m) ∧
      (n.marker = .warning ↔ ∃ m, n = .message m ∧ m.level = .warning) ∧
      (n.marker = .error ↔ ∃ m, n = .message m ∧ m.level = .error) ∧
      (n.marker = .info ↔ ∃ m, n = .message m ∧ (m.level = .info ∨ m.level = .log)) := by
  cases n with
  | message m => cases hlevel : m.level <;> simp [marker, failed, hlevel]
  | step h cs => cases hfailed : h.failed <;> simp [marker, failed, hfailed]
  | action a => cases hfailed : a.failed <;> simp [marker, failed, hfailed]

mutual

def shape : Node → Shape
  | step h cs => .node (step h cs).marker h.attachments.length (shapes cs)
  | action a => .node (action a).marker 0 []
  | message m => .node (message m).marker 0 []

def shapes : List Node → List Shape
  | [] => []
  | n :: ns => n.shape :: shapes ns

end

end Node

namespace Outline

/-- reads one line in front of what is read already: files, which have no shape, and nodes, with their indentations; a
node takes up what is indented deeper and follows it -/
def place (line : Nat × Option Marker) (read : List (Nat × Option Shape)) : List (Nat × Option Shape) :=
  match line.2 with
  | none => (line.1, none) :: read
  | some m =>
    let inner := read.takeWhile fun i => line.1 < i.1
    (line.1, some (.node m (inner.countP fun i => i.2.isNone) (inner.filterMap Prod.snd))) ::
      read.dropWhile fun i => line.1 < i.1

/-- reads lines, the last one first, in front of what is read already -/
def readLines (ls : List (List Char)) (read : List (Nat × Option Shape)) : List (Nat × Option Shape) :=
  (ls.map lead).foldr place read

/-- the shapes of the forest in an outline -/
def readShapes (text : String) : List Shape := (readLines (lines text) []).filterMap Prod.snd

/-- what is read of some files -/
def files (n depth : Nat) : List (Nat × Option Shape) := List.replicate n (2 * depth, none)

/-- what is read of nodes that stand side by side -/
def nodes (depth : Nat) (ss : List Shape) : List (Nat × Option Shape) := ss.map fun s => (2 * depth, some s)

theorem filterMap_nodes (depth : Nat) (ss : List Shape) : (nodes depth ss).filterMap Prod.snd = ss := by
  induction ss with
  | nil => rfl
  | cons s ss ih => exact congrArg (s :: ·) ih

variable {depth : Nat} {rest : List (Nat × Option Shape)}

/-- a node takes up its files and its children, and leaves alone what is not indented deeper than itself -/
theorem place_node (m : Marker) (n : Nat) (ss : List Shape) (hrest : ∀ i ∈ rest.head?, i.1 ≤ 2 * depth) :
    place (2 * depth, some m) (files n (depth + 1) ++ nodes (depth + 1) ss ++ rest) =
      nodes depth [.node m n ss] ++ rest := by
  have hinner : ∀ i ∈ files n (depth + 1) ++ nodes (depth + 1) ss, decide (2 * depth < i.1) = true := by
    refine List.forall_mem_append.2 ⟨fun i hi => ?_, List.forall_mem_map.2 fun s hs => ?_⟩
    · rw [List.eq_of_mem_replicate hi]
      exact decide_eq_true (by omega)
    · exact decide_eq_true (by omega)
  have htake : rest.takeWhile (fun i => decide (2 * depth < i.1)) = [] := by
    cases rest with
    | nil => rfl
    | cons i rest => exact List.takeWhile_cons_of_neg (by simpa using hrest i rfl)
  have hdrop : rest.dropWhile (fun i => decide (2 * depth < i.1)) = rest := by
    cases rest with
    | nil => rfl
    | cons i rest => exact List.dropWhile_cons_of_neg (by simpa using hrest i rfl)
  have hcount : (files n (depth + 1) ++ nodes (depth + 1) ss).countP (fun i => i.2.isNone) = n := by
    simp [files, nodes, List.countP_replicate, List.countP_map, Function.comp_def]
  have hshapes : (files n (depth + 1) ++ nodes (depth + 1) ss).filterMap Prod.snd = ss := by
    rw [List.filterMap_append, filterMap_nodes, files, List.filterMap_replicate_of_none rfl, List.nil_append]
  simp only [place]
  rw [List.takeWhile_append_of_pos hinner, List.dropWhile_append_of_pos hinner, htake, hdrop, List.append_nil, hcount,
    hshapes]
  rfl

theorem readLines_append (ls ks : List (List Char)) (read : List (Nat × Option Shape)) :
    readLines (ls ++ ks) read = readLines ls (readLines ks read) := by
  rw [readLines, List.map_append, List.foldr_append]
  rfl

theorem readLines_fileLines (as : List Attachment) (depth : Nat) (read : List (Nat × Option Shape)) :
    readLines ((as.map (Node.fileLine depth)).map String.toList) read = files as.length (depth + 1) ++ read := by
  induction as with
  | nil => rfl
  | cons a as ih =>
    calc readLines (((a :: as).map (Node.fileLine depth)).map String.toList) read
        = place (lead (Node.fileLine depth a).toList) (readLines ((as.map (Node.fileLine depth)).map String.toList) read) :=
          rfl
      _ = files (as.length + 1) (depth + 1) ++ read := by rw [Node.lead_fileLine, ih]; rfl

/-- the line of a node, in front of what was read of its files and children -/
theorem readLines_headLine (n : Node) (count : Nat) (ss : List Shape) (hrest : ∀ i ∈ rest.head?, i.1 ≤ 2 * depth) :
    readLines [(Node.headLine depth n).toList] (files count (depth + 1) ++ nodes (depth + 1) ss ++ rest) =
      nodes depth [.node n.marker count ss] ++ rest := by
  have hplace := place_node n.marker count ss hrest
  rw [← Node.lead_headLine] at hplace
  exact hplace

mutual

theorem readLines_outlineLines : ∀ (n : Node) (depth : Nat) (rest : List (Nat × Option Shape)),
    (∀ i ∈ rest.head?, i.1 ≤ 2 * depth) →
      readLines ((Node.outlineLines depth n).map String.toList) rest = nodes depth [n.shape] ++ rest
  | .step h cs, depth, rest, hrest => by
    have hchildren := readLines_forestLines cs (depth + 1) rest fun i hi => Nat.le_trans (hrest i hi) (by omega)
    rw [Node.outlineLines, List.map_cons, List.map_append, ← List.singleton_append, readLines_append, readLines_append,
      hchildren, readLines_fileLines, ← List.append_assoc, readLines_headLine _ _ _ hrest]
    rfl
  | .action a, depth, rest, hrest => readLines_headLine (.action a) 0 [] hrest
  | .message m, depth, rest, hrest => readLines_headLine (.message m) 0 [] hrest

theorem readLines_forestLines : ∀ (ns : List Node) (depth : Nat) (rest : List (Nat × Option Shape)),
    (∀ i ∈ rest.head?, i.1 ≤ 2 * depth) →
      readLines ((Node.forestLines depth ns).map String.toList) rest = nodes depth (Node.shapes ns) ++ rest
  | [], _, _, _ => rfl
  | n :: ns, depth, rest, hrest => by
    have hothers := readLines_forestLines ns depth rest hrest
    -- behind the first node comes the next one, or else what follows the forest
    have hnext : ∀ i ∈ (nodes depth (Node.shapes ns) ++ rest).head?, i.1 ≤ 2 * depth := by
      cases ns with
      | nil => exact hrest
      | cons m ms =>
        intro i hi
        obtain rfl : (2 * depth, some m.shape) = i := Option.some.inj hi
        exact Nat.le_refl (2 * depth)
    rw [Node.forestLines, List.map_append, readLines_append, hothers, readLines_outlineLines n depth _ hnext,
      ← List.append_assoc]
    rfl

end

/-- **An outline can be read**: it has the shapes of its forest, whatever the texts are, line feeds excepted. -/
theorem readShapes_outline {ns : List Node} (h : ∀ t ∈ Node.forestTexts ns, '\n' ∉ t.toList) :
    readShapes (Node.outline ns) = Node.shapes ns := by
  have hlines := lines_join (Node.lineFeed_not_mem_forestLines ns h 0)
  have hread := readLines_forestLines ns 0 [] fun i hi => absurd hi (by simp)
  rw [readShapes, Node.outline, hlines, hread, List.append_nil, filterMap_nodes]

end Outline

namespace Node

/-- **The outline determines the tree**: forests with one outline have as many roots, and at every node the same marker,
as many files and children of the same shapes in the same order. -/
theorem shapes_eq_of_outline_eq {ns ms : List Node} (hns : ∀ t ∈ forestTexts ns, '\n' ∉ t.toList)
    (hms : ∀ t ∈ forestTexts ms, '\n' ∉ t.toList) (h : outline ns = outline ms) : shapes ns = shapes ms := by
  rw [← Outline.readShapes_outline hns, h, Outline.readShapes_outline hms]

/-- a payment that came too late, with a log and with a name below it that looks like a line of its own -/
def latePayment : Node :=
  let now : Timestamp := { year := 2026, month := 3, day := 1 }
  .step
    { name := "pay", actionId := "pay", failed := true, exception := some ⟨"timeout", "late"⟩,
      attachments := [⟨"log", "a: b"⟩], startedAt := now }
    [.action { name := "  - click", actionId := "click", timestamp := now }, .message ⟨"@ end", .log, now⟩]

/-- another one with the same outline, put together from other texts -/
def latePaymentTwin : Node :=
  let now : Timestamp := { year := 2026, month := 3, day := 2 }
  .step
    { name := "pay [late]", actionId := "order", failed := true, attachments := [⟨"log: a", "b"⟩], startedAt := now }
    [.step { name := "  - click", actionId := "click", startedAt := now } [], .message ⟨"@ end", .info, now⟩]

theorem shapes_of_late_payments :
    outline [latePayment] = "x pay [late]\n  @ log: a: b\n  -   - click\n  i @ end\n" ∧
      shapes [latePayment] = shapes [latePaymentTwin] :=
  ⟨by decide, shapes_eq_of_outline_eq (by decide) (by decide) (by decide)⟩

/-- with a line feed in a text, an action can look like a step with a child -/
example :
    let now : Timestamp := { year := 2026, month := 3, day := 1 }
    let pay : Node := .action { name := "pay\n  - click", actionId := "pay", timestamp := now }
    let click : Node := .action { name := "click", actionId := "click", timestamp := now }
    outline [pay] = outline [.step { name := "pay", actionId := "pay", startedAt := now } [click]] := by
  decide

end Node

end TestTrail
