import Mathlib
import ShardRouting.Identifier

/-!
# Normal forms of names

Names are compared in a normal form: blanks are cut off their ends, then quotes, and capital letters
become small ones. None of the three steps does anything when it is taken twice in a row, but all of
them together may: blanks that stood inside the quotes stand at the ends once the quotes are gone.

* `Text.Bare`: a text without characters of a kind at its ends, which is what cutting leaves
  (`bare_trimmed`) and leaves alone (`trimmed_eq_self_iff`).
* `Text.trimmed_append_append`: what is left of a text that is padded on both sides.
* `Identifier.IsSettled`: a name whose quotes hold no blanks at their ends.
* `Identifier.normalize_normalize_iff`: these are the names that have their normal form for good.
-/

namespace ShardRouting

namespace Text

variable {p : Char → Bool} {cs before behind : List Char} {c : Char}

/-- A text that neither starts nor ends with a character of a kind. -/
def Bare (p : Char → Bool) (cs : List Char) : Prop :=
  (∀ c ∈ cs.head?, p c = false) ∧ ∀ c ∈ cs.getLast?, p c = false

instance (p : Char → Bool) (cs : List Char) : Decidable (Bare p cs) :=
  decidable_of_iff (cs.head?.any p = false ∧ cs.getLast?.any p = false)
    (and_congr (Option.any_eq_false _ _) (Option.any_eq_false _ _))

theorem Bare.of_forall (h : ∀ c ∈ cs, p c = false) : Bare p cs :=
  ⟨fun c hc => h c (List.mem_of_mem_head? hc), fun c hc => h c (List.mem_of_getLast? hc)⟩

/-- A text falls into what is cut off its front, what is left, and what is cut off its back. -/
theorem exists_append_trimmed (p : Char → Bool) (cs : List Char) :
    ∃ before behind, (∀ c ∈ before, p c) ∧ (∀ c ∈ behind, p c) ∧
      cs = before ++ (trimmed p cs ++ behind) := by
  refine ⟨cs.takeWhile p, ((cs.dropWhile p).reverse.takeWhile p).reverse,
    fun c hc => List.mem_takeWhile_imp hc,
    fun c hc => List.mem_takeWhile_imp (List.mem_reverse.1 hc), ?_⟩
  rw [trimmed, ← List.reverse_append, List.takeWhile_append_dropWhile, List.reverse_reverse,
    List.takeWhile_append_dropWhile]

theorem dropWhile_eq_self (h : ∀ c ∈ cs.head?, p c = false) : cs.dropWhile p = cs := by
  cases cs with
  | nil => rfl
  | cons c cs => rw [List.dropWhile_cons_of_neg (by simp [h c rfl])]

theorem not_of_mem_head?_dropWhile (hc : c ∈ (cs.dropWhile p).head?) : p c = false := by
  have hnot := List.head?_dropWhile_not p cs
  rwa [Option.mem_def.1 hc] at hnot

/-- Of a text with padding on both sides that what stands between does not share at its ends, that
is left. -/
theorem trimmed_append_append (hbefore : ∀ c ∈ before, p c) (hcs : Bare p cs)
    (hbehind : ∀ c ∈ behind, p c) : trimmed p (before ++ (cs ++ behind)) = cs := by
  have hback : cs.reverse.dropWhile p = cs.reverse := by
    refine dropWhile_eq_self fun c hc => hcs.2 c ?_
    rwa [List.head?_reverse] at hc
  rw [trimmed, List.dropWhile_append_of_pos hbefore]
  cases cs with
  | nil => rw [List.nil_append, List.dropWhile_eq_nil_iff.2 hbehind]; rfl
  | cons c cs =>
    have hc : ¬ p c := by simp [hcs.1 c rfl]
    rw [List.cons_append, List.dropWhile_cons_of_neg hc, ← List.cons_append, List.reverse_append,
      List.dropWhile_append_of_pos fun c hc => hbehind c (List.mem_reverse.1 hc), hback,
      List.reverse_reverse]

/-- What is left after cutting is bare. -/
theorem bare_trimmed (p : Char → Bool) (cs : List Char) : Bare p (trimmed p cs) := by
  constructor
  · intro c hc
    -- the first character that is left is the first one behind the front
    obtain ⟨behind, hbehind⟩ : trimmed p cs <+: cs.dropWhile p :=
      List.reverse_suffix.1 (by rw [trimmed, List.reverse_reverse]; exact List.dropWhile_suffix p)
    refine @not_of_mem_head?_dropWhile p cs c ?_
    rw [← hbehind, Option.mem_def, List.head?_append, Option.mem_def.1 hc, Option.some_or]
  · intro c hc
    rw [trimmed, List.getLast?_reverse] at hc
    exact not_of_mem_head?_dropWhile hc

/-- Cutting leaves alone what is bare, and nothing else. -/
theorem trimmed_eq_self_iff : trimmed p cs = cs ↔ Bare p cs := by
  constructor
  · intro h
    rw [← h]
    exact bare_trimmed p cs
  · intro h
    have hpadded := @trimmed_append_append p cs [] [] nofun h nofun
    rwa [List.nil_append, List.append_nil] at hpadded

/-- What is not cut stays. -/
theorem mem_trimmed (h : c ∈ cs) (hc : p c = false) : c ∈ trimmed p cs := by
  obtain ⟨before, behind, hbefore, hbehind, hcs⟩ := exists_append_trimmed p cs
  rw [hcs, List.mem_append, List.mem_append] at h
  rcases h with h | h | h
  · rw [hbefore c h] at hc
    cases hc
  · exact h
  · rw [hbehind c h] at hc
    cases hc

/-- What is left after cutting was there before. -/
theorem mem_of_mem_trimmed (h : c ∈ trimmed p cs) : c ∈ cs := by
  obtain ⟨before, behind, -, -, hcs⟩ := exists_append_trimmed p cs
  rw [hcs]
  exact List.mem_append_right _ (List.mem_append_left _ h)

/-- Cutting makes no text longer. -/
theorem length_trimmed_le (p : Char → Bool) (cs : List Char) :
    (trimmed p cs).length ≤ cs.length := by
  obtain ⟨before, behind, -, -, hcs⟩ := exists_append_trimmed p cs
  have hlength := congrArg List.length hcs
  simp only [List.length_append] at hlength
  omega

/-- Only texts that nothing is cut off have their length afterwards. -/
theorem trimmed_eq_self_of_length (h : (trimmed p cs).length = cs.length) :
    trimmed p cs = cs := by
  obtain ⟨before, behind, -, -, hcs⟩ := exists_append_trimmed p cs
  have hlength := congrArg List.length hcs
  simp only [List.length_append] at hlength
  have hbefore : before = [] := List.eq_nil_of_length_eq_zero (by omega)
  have hbehind : behind = [] := List.eq_nil_of_length_eq_zero (by omega)
  rw [hbefore, hbehind, List.nil_append, List.append_nil] at hcs
  exact hcs.symm

/-- Cutting commutes with a change of characters that does not affect what is cut. -/
theorem trimmed_map {f : Char → Char} (hf : ∀ c, p (f c) = p c) (cs : List Char) :
    trimmed p (cs.map f) = (trimmed p cs).map f := by
  have hp : p ∘ f = p := funext hf
  rw [trimmed, trimmed, List.dropWhile_map, ← List.map_reverse, List.dropWhile_map,
    ← List.map_reverse, hp]

end Text

namespace Identifier

variable {c q : Char} {cs : List Char}

/-! ### Small letters -/

/-- Only a character that is no letter itself is one in small letters. -/
theorem toLower_eq_iff (hq : q.isAlpha = false) : c.toLower = q ↔ c = q := by
  have hsame : c.isAlpha = false → c.toLower = c := by
    intro hc
    rw [Char.isAlpha, Bool.or_eq_false_iff] at hc
    exact Char.toLower_eq_of_not_isUpper (by simp [hc.1])
  constructor
  · intro h
    rw [← hsame (by rw [← Char.isAlpha_toLower_eq_isAlpha, h, hq]), h]
  · rintro rfl
    exact hsame hq

/-- No blank is a letter, so that capital and small letters are no blanks alike. -/
theorem isBlank_toLower (c : Char) : Text.isBlank c.toLower = Text.isBlank c := by
  have hblanks : Text.blanks.all (fun b => !b.isAlpha) = true := by decide
  rw [Bool.eq_iff_iff, Text.isBlank, Text.isBlank, List.contains_iff_mem, List.contains_iff_mem]
  constructor
  · intro h
    have hq : c.toLower.isAlpha = false := by simpa using List.all_eq_true.1 hblanks _ h
    rwa [← (toLower_eq_iff hq).1 rfl] at h
  · intro h
    have hq : c.isAlpha = false := by simpa using List.all_eq_true.1 hblanks _ h
    rwa [(toLower_eq_iff hq).2 rfl]

/-- No quote is a letter either. -/
theorem isQuote_toLower (c : Char) : isQuote c.toLower = isQuote c := by
  simp [isQuote, toLower_eq_iff]

/-! ### Names that stay as they are -/

/-- What is left of a name without its blanks and its quotes. -/
def unquoted (name : String) : List Char :=
  Text.trimmed isQuote (Text.trimmed Text.isBlank name.toList)

/-- A name whose quotes hold no blanks at their ends. -/
def IsSettled (name : String) : Prop :=
  Text.Bare Text.isBlank (unquoted name)

instance (name : String) : Decidable (IsSettled name) :=
  inferInstanceAs (Decidable (Text.Bare _ _))

theorem toList_normalize (name : String) :
    (normalize name).toList = (unquoted name).map Char.toLower := by
  rw [normalize, normalChars, String.toList_ofList, unquoted]

/-- A name in normal form loses the blanks at its ends, and the quotes inside them. -/
theorem toList_normalize_normalize (name : String) : (normalize (normalize name)).toList =
    (Text.trimmed isQuote (Text.trimmed Text.isBlank (unquoted name))).map Char.toLower := by
  have hlower : Char.toLower ∘ Char.toLower = Char.toLower :=
    funext Char.toLower_toLower_eq_toLower
  rw [toList_normalize, unquoted, toList_normalize, Text.trimmed_map isBlank_toLower,
    Text.trimmed_map isQuote_toLower, List.map_map, hlower]

/-- The names whose normal form is its own are those whose quotes hold no blanks at their ends. -/
theorem normalize_normalize_iff (name : String) :
    normalize (normalize name) = normalize name ↔ IsSettled name := by
  rw [← String.toList_inj, toList_normalize_normalize, toList_normalize, IsSettled,
    ← Text.trimmed_eq_self_iff]
  constructor
  · intro h
    have hlength := congrArg List.length h
    rw [List.length_map, List.length_map] at hlength
    have hquotes := Text.length_trimmed_le isQuote (Text.trimmed Text.isBlank (unquoted name))
    have hblanks := Text.length_trimmed_le Text.isBlank (unquoted name)
    exact Text.trimmed_eq_self_of_length (by omega)
  · intro h
    have hbare : Text.Bare isQuote (unquoted name) := Text.bare_trimmed _ _
    rw [h, Text.trimmed_eq_self_iff.2 hbare]

/-- Blanks around the quotes are cut off, and blanks inside them stay. -/
example : IsSettled " [User_Id]" ∧ ¬ IsSettled "[ user_id]" := by decide +kernel

end Identifier

end ShardRouting
