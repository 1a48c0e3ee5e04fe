import TextToSqlAgent.Web.SseReference

/-!
# Lines and their breaks

Where the lines of a text end, how much of each the parser may have to hold before
its break is known, and what the beginnings of a text are split into.
-/

namespace SseLines

open Cutting Utf16 SseClient SseReference

/-- No line break is in it. -/
def Plain (x : JsString) : Prop := ∀ ch ∈ x, ch ≠ LF ∧ ch ≠ CR

/-- A line break, and the text after it. A CR is one if no LF follows it. -/
inductive Break : JsString → JsString → Prop
  | lf (r : JsString) : Break [LF] r
  | crlf (r : JsString) : Break [CR, LF] r
  | cr {ch : UInt16} (r : JsString) (other : ch ≠ LF) : Break [CR] (ch :: r)

/-- The longest part of a line that may be held without its break: a CR may be the
last character of a chunk. -/
def heldLength (line brk : JsString) : Nat :=
  line.length + if brk.head? = some CR then 1 else 0

/-- The complete lines of a text, each with how much of it may be held. -/
def heldLines (cur : JsString) : JsString → List (JsString × Nat)
  | [] => []
  | [ch] => if ch = LF then [(cur, cur.length)] else []
  | ch :: next :: after =>
    if ch = LF then (cur, cur.length) :: heldLines [] (next :: after)
    else if ch = CR then
      if next = LF then (cur, cur.length + 1) :: heldLines [] after
      else (cur, cur.length + 1) :: heldLines [] (next :: after)
    else heldLines (cur ++ [ch]) (next :: after)

/-! ## One line -/

theorem nextLineBreakFrom_plain {x : JsString} (plain : Plain x) (i : Nat) (b : JsString) :
    nextLineBreakFrom i (x ++ b) = nextLineBreakFrom (i + x.length) b := by
  induction x generalizing i with
  | nil => rfl
  | cons ch rest ih =>
    obtain ⟨noFeed, noReturn⟩ := plain ch List.mem_cons_self
    rw [List.cons_append, nextLineBreakFrom.eq_def]
    simp only [if_neg noFeed, if_neg noReturn]
    rw [ih (fun other listed => plain other (List.mem_cons_of_mem _ listed)), List.length_cons]
    congr 1
    omega

theorem nextLineBreakFrom_break {brk r : JsString} (broken : Break brk r) (i : Nat) :
    nextLineBreakFrom i (brk ++ r) = some (i, i + brk.length) := by
  have different : CR ≠ LF := by decide
  cases broken with
  | lf => simp [nextLineBreakFrom]
  | crlf => simp [nextLineBreakFrom, different]
  | cr r other => simp [nextLineBreakFrom, different, other]

/-- A text that holds no complete line. -/
def Uncut (b : JsString) : Prop := Plain b ∨ ∃ x, Plain x ∧ b = x ++ [CR]

theorem nextLineBreak_uncut {b : JsString} (uncut : Uncut b) : nextLineBreakFrom 0 b = none := by
  have different : CR ≠ LF := by decide
  rcases uncut with plain | ⟨x, plain, rfl⟩
  · have none := nextLineBreakFrom_plain plain 0 []
    rwa [List.append_nil, nextLineBreakFrom] at none
  · rw [nextLineBreakFrom_plain plain]
    simp [nextLineBreakFrom, different]

theorem nextLineBreak_line {line brk r : JsString} (plain : Plain line) (broken : Break brk r) :
    nextLineBreakFrom 0 (line ++ (brk ++ r)) = some (line.length, line.length + brk.length) := by
  rw [nextLineBreakFrom_plain plain, nextLineBreakFrom_break broken, Nat.zero_add]

/-- A text holds no complete line, or begins with one. -/
theorem uncut_or_line (b : JsString) :
    Uncut b ∨ ∃ line brk r, b = line ++ (brk ++ r) ∧ Plain line ∧ Break brk r := by
  induction b with
  | nil => exact Or.inl (Or.inl nofun)
  | cons ch rest ih =>
    by_cases feed : ch = LF
    · exact Or.inr ⟨[], [LF], rest, by rw [feed]; rfl, nofun, .lf rest⟩
    by_cases ret : ch = CR
    · cases rest with
      | nil => exact Or.inl (Or.inr ⟨[], nofun, by rw [ret]; rfl⟩)
      | cons next after =>
        by_cases pair : next = LF
        · exact Or.inr ⟨[], [CR, LF], after, by rw [ret, pair]; rfl, nofun, .crlf after⟩
        · exact Or.inr ⟨[], [CR], next :: after, by rw [ret]; rfl, nofun, .cr after pair⟩
    have more : ∀ x, Plain x → Plain (ch :: x) := by
      intro x plain other listed
      rcases List.mem_cons.mp listed with rfl | listed
      · exact ⟨feed, ret⟩
      · exact plain other listed
    rcases ih with (plain | ⟨x, plain, rfl⟩) | ⟨line, brk, r, rfl, plain, broken⟩
    · exact Or.inl (Or.inl (more rest plain))
    · exact Or.inl (Or.inr ⟨ch :: x, more x plain, rfl⟩)
    · exact Or.inr ⟨ch :: line, brk, r, rfl, more line plain, broken⟩

theorem Break.length_pos {brk r : JsString} (broken : Break brk r) : 0 < brk.length := by
  cases broken <;> simp

/-- Induction over the lines of a text. -/
theorem lines_induction {P : JsString → Prop} (uncut : ∀ b, Uncut b → P b)
    (line : ∀ line brk r, Plain line → Break brk r → P r → P (line ++ (brk ++ r)))
    (b : JsString) : P b := by
  induction hn : b.length using Nat.strongRecOn generalizing b with
  | ind n ih =>
    rcases uncut_or_line b with none | ⟨first, brk, r, rfl, plain, broken⟩
    · exact uncut b none
    · have shorter : r.length < n := by
        have := broken.length_pos
        simp only [List.length_append] at hn
        omega
      exact line first brk r plain broken (ih _ shorter r rfl)

/-! ## The splits of a text, line by line -/

theorem cut_uncut {b : JsString} (uncut : Uncut b) : lineCutter.cut b = none := by
  simp [lineCutter, nextLineBreak, nextLineBreak_uncut uncut]

theorem cut_line {line brk r : JsString} (plain : Plain line) (broken : Break brk r) :
    lineCutter.cut (line ++ (brk ++ r)) = some (line, r) := by
  simp [lineCutter, nextLineBreak, nextLineBreak_line plain broken]

theorem splitLines_uncut {b : JsString} (uncut : Uncut b) : splitLines [] b = ([], b) := by
  rw [splitLines_of_break 0 b [], nextLineBreak_uncut uncut]
  rfl

theorem splitLines_line {first brk r : JsString} (plain : Plain first) (broken : Break brk r) :
    splitLines [] (first ++ (brk ++ r)) = line first (splitLines [] r) := by
  rw [splitLines_of_break 0 _ [], nextLineBreak_line plain broken]
  simp

/-- What is left uncut is the incomplete line. -/
theorem rest_eq (b : JsString) : rest lineCutter b = (splitLines [] b).2 := by
  induction b using lines_induction with
  | uncut b none => rw [rest_none (cut_uncut none), splitLines_uncut none]
  | line first brk r plain broken ih =>
    rw [rest_some (cut_line plain broken), ih, splitLines_line plain broken]
    rfl

/-- A character that breaks no line goes into it. -/
theorem heldLines_plain {x b : JsString} (plain : Plain x) (more : b ≠ []) (cur : JsString) :
    heldLines cur (x ++ b) = heldLines (cur ++ x) b := by
  induction x generalizing cur with
  | nil => rw [List.append_nil, List.nil_append]
  | cons ch rest ih =>
    obtain ⟨noFeed, noReturn⟩ := plain ch List.mem_cons_self
    have later := ih (fun other listed => plain other (List.mem_cons_of_mem _ listed)) (cur ++ [ch])
    cases tail : rest ++ b with
    | nil => exact absurd (List.append_eq_nil_iff.mp tail).2 more
    | cons next after =>
      rw [List.cons_append, tail, heldLines, if_neg noFeed, if_neg noReturn, ← tail, later,
        List.append_assoc, List.singleton_append]

theorem heldLines_uncut {b : JsString} (uncut : Uncut b) (cur : JsString) :
    heldLines cur b = [] := by
  have single : ∀ {x : JsString} {ch : UInt16}, Plain x → ch ≠ LF →
      heldLines cur (x ++ [ch]) = [] := by
    intro x ch plain noFeed
    rw [heldLines_plain plain (List.cons_ne_nil _ _), heldLines, if_neg noFeed]
  rcases uncut with plain | ⟨x, plain, rfl⟩
  · rcases List.eq_nil_or_concat b with rfl | ⟨x, ch, rfl⟩
    · rfl
    · rw [List.concat_eq_append] at plain ⊢
      exact single (fun other listed => plain other (List.mem_append_left _ listed))
        (plain ch (by simp)).1
  · exact single plain (by decide)

theorem heldLines_line {first brk r : JsString} (plain : Plain first) (broken : Break brk r)
    (cur : JsString) : heldLines cur (first ++ (brk ++ r)) =
      (cur ++ first, heldLength (cur ++ first) brk) :: heldLines [] r := by
  have different : CR ≠ LF := by decide
  have some : brk ++ r ≠ [] := by
    have := broken.length_pos
    intro none
    rw [(List.append_eq_nil_iff.mp none).1] at this
    exact absurd this (Nat.lt_irrefl 0)
  rw [heldLines_plain plain some]
  cases broken with
  | lf =>
    cases r with
    | nil => simp [heldLines, heldLength, different.symm]
    | cons next after => simp [heldLines, heldLength, different.symm]
  | crlf => simp [heldLines, heldLength, different]
  | cr r other => simp [heldLines, heldLength, different, other]

theorem map_fst_heldLines (b : JsString) :
    (heldLines [] b).map Prod.fst = (splitLines [] b).1 := by
  induction b using lines_induction with
  | uncut b none => rw [heldLines_uncut none, splitLines_uncut none]; rfl
  | line first brk r plain broken ih =>
    rw [heldLines_line plain broken, splitLines_line plain broken, List.map_cons, ih]
    rfl

theorem length_le_heldLength (line brk : JsString) : line.length ≤ heldLength line brk :=
  Nat.le_add_right _ _

/-- No line is longer than what may be held of it. -/
theorem length_le_of_mem_heldLines {b : JsString} {entry : JsString × Nat}
    (listed : entry ∈ heldLines [] b) : entry.1.length ≤ entry.2 := by
  induction b using lines_induction with
  | uncut b none =>
    rw [heldLines_uncut none] at listed
    exact absurd listed List.not_mem_nil
  | line first brk r plain broken ih =>
    rw [heldLines_line plain broken] at listed
    rcases List.mem_cons.mp listed with rfl | listed
    · exact length_le_heldLength _ _
    · exact ih listed

/-! ## The beginnings of a text -/

theorem plain_mono {x y : JsString} (plain : Plain y) (part : x <+: y) : Plain x :=
  fun ch listed => plain ch (part.subset listed)

/-- A beginning of a break and what follows it: nothing, a CR that is held, or the
break. -/
theorem prefix_break_cases {brk r y : JsString} (broken : Break brk r) (part : y <+: brk ++ r) :
    y = [] ∨ (y = [CR] ∧ brk.head? = some CR) ∨
      ∃ r', r' <+: r ∧ y = brk ++ r' ∧ Break brk r' := by
  cases broken with
  | lf =>
    rcases List.prefix_cons_iff.mp part with rfl | ⟨r', rfl, tail⟩
    · exact Or.inl rfl
    · exact Or.inr (Or.inr ⟨r', tail, rfl, .lf r'⟩)
  | crlf =>
    rcases List.prefix_cons_iff.mp part with rfl | ⟨z, rfl, inner⟩
    · exact Or.inl rfl
    · rcases List.prefix_cons_iff.mp inner with rfl | ⟨r', rfl, tail⟩
      · exact Or.inr (Or.inl ⟨rfl, rfl⟩)
      · exact Or.inr (Or.inr ⟨r', tail, rfl, .crlf r'⟩)
  | cr r other =>
    rcases List.prefix_cons_iff.mp part with rfl | ⟨z, rfl, inner⟩
    · exact Or.inl rfl
    · rcases List.prefix_cons_iff.mp inner with rfl | ⟨r', rfl, tail⟩
      · exact Or.inr (Or.inl ⟨rfl, rfl⟩)
      · exact Or.inr (Or.inr ⟨_, inner, rfl, .cr r' other⟩)

/-- A beginning of a text ends inside its first line, or holds it. -/
theorem prefix_line_cases {first brk r x : JsString} (plain : Plain first) (broken : Break brk r)
    (part : x <+: first ++ (brk ++ r)) :
    (Uncut x ∧ x.length ≤ heldLength first brk) ∨
      ∃ r', r' <+: r ∧ x = first ++ (brk ++ r') ∧ Break brk r' := by
  rcases List.prefix_or_prefix_of_prefix part (List.prefix_append first (brk ++ r)) with
    inside | ⟨y, rfl⟩
  · exact Or.inl ⟨Or.inl (plain_mono plain inside),
      Nat.le_trans inside.length_le (length_le_heldLength _ _)⟩
  · rcases prefix_break_cases broken ((List.prefix_append_right_inj first).mp part) with
      rfl | ⟨rfl, ret⟩ | ⟨r', later, rfl, broken'⟩
    · rw [List.append_nil]
      exact Or.inl ⟨Or.inl plain, length_le_heldLength _ _⟩
    · refine Or.inl ⟨Or.inr ⟨first, plain, rfl⟩, Nat.le_of_eq ?_⟩
      rw [heldLength, if_pos ret, List.length_append, List.length_singleton]
    · exact Or.inr ⟨r', later, rfl, broken'⟩

theorem uncut_mono {b x : JsString} (uncut : Uncut b) (part : x <+: b) : Uncut x := by
  rcases uncut with plain | ⟨y, plain, rfl⟩
  · exact Or.inl (plain_mono plain part)
  · rcases List.prefix_concat_iff.mp part with rfl | inside
    · exact Or.inr ⟨y, plain, rfl⟩
    · exact Or.inl (plain_mono plain inside)

/-- A beginning of a text has its first lines, and holds no more of the next one than
may be held of it. -/
theorem prefix_lines {b x : JsString} (part : x <+: b) :
    ∃ m ≤ (heldLines [] b).length, heldLines [] x = (heldLines [] b).take m ∧
      (∀ entry, (heldLines [] b)[m]? = some entry → (splitLines [] x).2.length ≤ entry.2) ∧
      (m = (heldLines [] b).length →
        (splitLines [] x).2.length ≤ (splitLines [] b).2.length) := by
  induction b using lines_induction generalizing x with
  | uncut b none =>
    have also := uncut_mono none part
    refine ⟨0, Nat.zero_le _, ?_, ?_, ?_⟩
    · rw [heldLines_uncut also, List.take_zero]
    · rw [heldLines_uncut none]
      exact nofun
    · rw [splitLines_uncut also, splitLines_uncut none]
      exact fun _ => part.length_le
  | line first brk r plain broken ih =>
    rw [heldLines_line plain broken, splitLines_line plain broken]
    rcases prefix_line_cases plain broken part with ⟨uncut, short⟩ | ⟨r', later, rfl, broken'⟩
    · refine ⟨0, Nat.zero_le _, ?_, ?_, nofun⟩
      · rw [heldLines_uncut uncut, List.take_zero]
      · intro entry found
        rw [splitLines_uncut uncut]
        exact Option.some.inj found ▸ short
    · obtain ⟨m, bound, taken, next, last⟩ := ih later
      refine ⟨m + 1, Nat.succ_le_succ bound, ?_, ?_, ?_⟩
      · rw [heldLines_line plain broken', taken, List.take_succ_cons]
      · rw [splitLines_line plain broken']
        exact next
      · rw [splitLines_line plain broken']
        exact fun same => last (Nat.succ.inj same)

theorem Break.mono {brk r x : JsString} (broken : Break brk r) (part : x <+: r)
    (some : x ≠ []) : Break brk x := by
  cases broken with
  | lf => exact .lf x
  | crlf => exact .crlf x
  | cr r other =>
    rcases List.prefix_cons_iff.mp part with rfl | ⟨x', rfl, -⟩
    · exact absurd rfl some
    · exact .cr x' other

/-- Just before its first line is cut, all that may be held of it is held; one more
character, and at most that one is left. -/
theorem held_before_first {first brk r : JsString} (plain : Plain first)
    (broken : Break brk r) :
    ∃ y ch, y ++ [ch] <+: first ++ (brk ++ r) ∧
      heldLines [] (y ++ [ch]) = [(first, heldLength first brk)] ∧
      (splitLines [] (y ++ [ch])).2.length ≤ 1 ∧
      heldLength first brk ≤ (splitLines [] y).2.length := by
  have splits : ∀ r', Break brk r' → heldLines [] r' = [] → (splitLines [] r').2.length ≤ 1 →
      heldLines [] (first ++ (brk ++ r')) = [(first, heldLength first brk)] ∧
        (splitLines [] (first ++ (brk ++ r'))).2.length ≤ 1 := by
    intro r' broken' none short
    rw [heldLines_line plain broken', none, splitLines_line plain broken']
    exact ⟨rfl, short⟩
  have held : heldLength first [CR] ≤ (splitLines [] (first ++ [CR])).2.length := by
    rw [splitLines_uncut (Or.inr ⟨first, plain, rfl⟩), heldLength, List.length_append]
    exact Nat.le_refl _
  cases broken with
  | lf =>
    obtain ⟨lines, short⟩ := splits [] (.lf []) rfl (Nat.zero_le 1)
    refine ⟨first, LF, ⟨r, by simp⟩, lines, short, ?_⟩
    rw [splitLines_uncut (Or.inl plain)]
    exact Nat.le_refl _
  | crlf =>
    obtain ⟨lines, short⟩ := splits [] (.crlf []) rfl (Nat.zero_le 1)
    have whole : first ++ [CR] ++ [LF] = first ++ ([CR, LF] ++ []) := by simp
    refine ⟨first ++ [CR], LF, ⟨r, by simp⟩, ?_, ?_, held⟩
    · rw [whole]
      exact lines
    · rw [whole]
      exact short
  | @cr ch r other =>
    have none : heldLines [] [ch] = [] := by simp [heldLines, other]
    obtain ⟨lines, short⟩ := splits [ch] (.cr [] other) none (by simp [splitLines, other])
    have whole : first ++ [CR] ++ [ch] = first ++ ([CR] ++ [ch]) := by simp
    refine ⟨first ++ [CR], ch, ⟨r, by simp⟩, ?_, ?_, held⟩
    · rw [whole]
      exact lines
    · rw [whole]
      exact short

/-- The same of every line of a text. -/
theorem held_before_cut {b : JsString} {k : Nat} {entry : JsString × Nat}
    (found : (heldLines [] b)[k]? = some entry) :
    ∃ y ch, y ++ [ch] <+: b ∧ heldLines [] (y ++ [ch]) = (heldLines [] b).take (k + 1) ∧
      (splitLines [] (y ++ [ch])).2.length ≤ 1 ∧ entry.2 ≤ (splitLines [] y).2.length := by
  induction b using lines_induction generalizing k with
  | uncut b none =>
    rw [heldLines_uncut none] at found
    cases found
  | line first brk r plain broken ih =>
    rw [heldLines_line plain broken] at found ⊢
    cases k with
    | zero =>
      obtain rfl := Option.some.inj found
      exact held_before_first plain broken
    | succ k =>
      obtain ⟨y, ch, part, lines, short, held⟩ := ih found
      have whole : first ++ (brk ++ y) ++ [ch] = first ++ (brk ++ (y ++ [ch])) := by simp
      have broken' := broken.mono part (by simp)
      refine ⟨first ++ (brk ++ y), ch, ?_, ?_, ?_, ?_⟩
      · obtain ⟨more, rfl⟩ := part
        exact ⟨more, by simp⟩
      · rw [whole, heldLines_line plain broken', lines, List.take_succ_cons]
      · rw [whole, splitLines_line plain broken']
        exact short
      · by_cases nothing : y = []
        · rw [nothing] at held
          exact Nat.le_trans held (Nat.zero_le _)
        · have earlier := broken.mono ((List.prefix_append y [ch]).trans part) nothing
          rw [splitLines_line plain earlier]
          exact held

end SseLines
