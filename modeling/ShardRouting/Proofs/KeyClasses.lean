import Mathlib
import ShardRouting.Proofs.ExactIntegers
import ShardRouting.Proofs.ShortestDigits

/-!
# Classes of keys

Two values are the same key by their integers where both have one, and else by their texts. That
relates every value to itself and in both directions alike, but a value without an integer may have
the text of one that has an integer, and then stands for other values than that one does. Among
values whose texts have the same integers as they have themselves this cannot be: there the same key
is the same class, an integer or a text.

* `Value.KeepsInteger`, `Value.keyClass`: these values, and their classes.
* `Value.IsPlain`: all values but truth values, large floating-point integers and byte sequences
  that spell integers; they keep their integers (`IsPlain.keepsInteger`).
* `Value.sameKey_trans_iff`: on which sets of values the relation is transitive.
* `Value.sameKey_equivalence`: what holds on all values, and on those that keep their integers.
-/

namespace ShardRouting

namespace Integer

/-- The numeral of an integer spells it. -/
theorem spells_toString (i : Int) : Spells (toString i).toList i := by
  have hne : ∀ n : Nat, Nat.toDigits 10 n ≠ [] := fun n => Nat.toDigits_ne_nil
  have hdigits : ∀ n : Nat, ∀ c ∈ Nat.toDigits 10 n, c.isDigit :=
    fun n c hc => Nat.isDigit_of_mem_toDigits (by decide) (by decide) hc
  rw [Int.toString_eq_repr, Int.repr_eq_if]
  split
  · next hnonneg =>
    have hspells := Spells.unsigned (hne i.toNat) (hdigits i.toNat)
    rwa [Nat.ofDigitChars_ten_toDigits, Int.toNat_of_nonneg hnonneg, ← Nat.toList_repr] at hspells
  · next hneg =>
    have hspells := Spells.minus (hne (-i).toNat) (hdigits (-i).toNat)
    rw [Nat.ofDigitChars_ten_toDigits, Int.toNat_of_nonneg (by omega), Int.neg_neg,
      ← Nat.toList_repr] at hspells
    simpa using hspells

end Integer

namespace Value

variable {a b c v : Value} {s : String} {i j : Int64}

/-! ### Values that keep their integers -/

/-- A value whose text has the integer of the value, or none if it has none. -/
def KeepsInteger (v : Value) : Prop :=
  (Value.text v.toText).integer? = v.integer?

/-- The class of a value: its integer or, if it has none, its text. -/
def keyClass (v : Value) : Int64 ⊕ String :=
  match v.integer? with
  | some i => .inl i
  | none => .inr v.toText

/-- Values that keep their integers have the same integer if they have the same text. -/
theorem KeepsInteger.integer?_eq (ha : a.KeepsInteger) (hb : b.KeepsInteger)
    (h : a.toText = b.toText) : a.integer? = b.integer? := by
  rw [← ha, ← hb, h]

/-- Values that keep their integers are the same key if they are of one class. -/
theorem sameKey_iff_keyClass (ha : a.KeepsInteger) (hb : b.KeepsInteger) :
    a.sameKey b ↔ a.keyClass = b.keyClass := by
  have htext := ha.integer?_eq hb
  unfold sameKey keyClass
  cases hi : a.integer? with
  | some i =>
    cases hj : b.integer? with
    | some j => simp
    | none =>
      rw [hi, hj] at htext
      simpa using htext
  | none =>
    cases hj : b.integer? with
    | some j =>
      rw [hi, hj] at htext
      simpa using htext
    | none => simp

/-- A value keeps its integer if that is the one which its text spells, as far as it is in range. -/
theorem keepsInteger_of_spells {n : Int} (hspells : Integer.Spells v.toText.toList n)
    (hv : v.integer? = Integer.narrow? n) : v.KeepsInteger := by
  have hbare : Text.trimmed Text.isBlank v.toText.toList = v.toText.toList :=
    Text.trimmed_eq_self_iff.2 (.of_forall hspells.not_isBlank)
  rw [KeepsInteger, hv, integer?, Integer.ofNumeral?, hbare, hspells.integer?, Option.bind_some]

/-- A text with a point in it has no integer. -/
theorem integer?_text_of_point (h : '.' ∈ s.toList) : (Value.text s).integer? = none := by
  have hpoint : '.' ∈ Text.trimmed Text.isBlank s.toList := Text.mem_trimmed h rfl
  rw [integer?, Integer.ofNumeral?, Option.bind_eq_none_iff]
  intro n hn
  rcases (Integer.integer?_eq_some_iff.1 hn).mem hpoint with h | h | h <;> cases h

/-- The text of a floating-point number that denotes no integer has no integer either. -/
theorem keepsInteger_double_of_none {x : Binary64} (h : x.integer? = none) :
    (Value.double x).KeepsInteger := by
  have hnone : (Value.double x).integer? = none := by rw [integer?, h, Option.map_none]
  rw [KeepsInteger, hnone, toText]
  cases hx : x.classify with
  | finite negative significand exponent => exact integer?_text_of_point (x.point_mem_text hx h)
  | infinite negative =>
    rw [Binary64.text, hx]
    cases negative <;> rfl
  | nan =>
    rw [Binary64.text, hx]
    rfl

/-- The text of negative zero has zero as its integer. -/
theorem keepsInteger_negativeZero : (Value.double Binary64.negativeZero).KeepsInteger := by
  have hclassify : Binary64.negativeZero.classify = .finite true 0 (-1074) := by decide
  have htext : Binary64.negativeZero.text .plain = String.ofList ['-', '0'] :=
    Binary64.text_plain_of_classify hclassify
      (by simp [Binary64.shortest, Binary64.positional, Binary64.digitsOf, Binary64.Layout.plain])
  have hmagnitude : Binary64.magnitude? 0 (-1074) = some 0 :=
    Binary64.magnitude?_eq_some_iff.2 (by rw [Nat.cast_zero, zero_mul])
  have hinteger : Binary64.negativeZero.integer? = some 0 := by
    simp only [Binary64.integer?, hclassify, hmagnitude]
    rfl
  have hspells : Integer.Spells ['-', '0'] 0 := @Integer.Spells.minus ['0'] (by simp) (by simp)
  refine @keepsInteger_of_spells _ 0 ?_ ?_
  · rwa [toText, htext, String.toList_ofList]
  · rw [integer?, hinteger]
    rfl

/-- The text of a floating-point number that denotes an integer of at most two to the power 53 has
that integer, as has that of negative zero. -/
theorem keepsInteger_double_of_some {x : Binary64} {n : Int} (h : x.integer? = some n)
    (hle : n.natAbs ≤ 2 ^ 53) : (Value.double x).KeepsInteger := by
  rcases eq_or_ne x Binary64.negativeZero with rfl | hzero
  · exact keepsInteger_negativeZero
  · have hspells := Integer.spells_toString n
    rw [← Binary64.text_plain_eq h hle hzero] at hspells
    refine keepsInteger_of_spells hspells ?_
    have hvalue : (Integer.saturate n).toInt = n :=
      Integer.toInt_saturate_of_le (by rw [Integer.least]; omega) (by rw [Integer.greatest]; omega)
    rw [integer?, h, Option.map_some, Integer.narrow?_eq_some_iff.2 hvalue]

/-- All values but truth values, floating-point integers above two to the power 53 and byte
sequences that spell integers. -/
def IsPlain : Value → Prop
  | .bool _ => False
  | .double x => ∀ n, x.integer? = some n → n.natAbs ≤ 2 ^ 53
  | .bytes bs => (Value.text (Text.ofBytes bs)).integer? = none
  | _ => True

/-- Plain values keep their integers. -/
theorem IsPlain.keepsInteger (h : v.IsPlain) : v.KeepsInteger := by
  cases v with
  | null => rfl
  | bool => exact absurd h id
  | int i =>
    exact keepsInteger_of_spells (Integer.spells_toString i.toInt)
      (Integer.narrow?_eq_some_iff.2 rfl).symm
  | uint n => exact keepsInteger_of_spells (Integer.spells_toString (n.toNat : Int)) rfl
  | double x =>
    cases hx : x.integer? with
    | none => exact keepsInteger_double_of_none hx
    | some n => exact keepsInteger_double_of_some hx (h n hx)
  | text => rfl
  | bytes bs => exact h

/-! ### Transitivity -/

/-- Being the same key is transitive among the values of a set. -/
def SameKeyTrans (S : Set Value) : Prop :=
  ∀ a ∈ S, ∀ b ∈ S, ∀ c ∈ S, a.sameKey b → b.sameKey c → a.sameKey c

/-- The values of a set that have integers are told apart alike by their integers and by their
texts, as far as these are texts of values without integers, too. -/
def TextsTell (S : Set Value) : Prop :=
  ∀ u ∈ S, ∀ v ∈ S, ∀ w ∈ S, ∀ i j, u.integer? = none → v.integer? = some i → w.integer? = some j →
    u.toText = v.toText → (i = j ↔ v.toText = w.toText)

theorem sameKey_of_some (hi : a.integer? = some i) (hj : b.integer? = some j) :
    a.sameKey b ↔ i = j := by
  simp [sameKey, hi, hj]

theorem sameKey_of_none (h : a.integer? = none ∨ b.integer? = none) :
    a.sameKey b ↔ a.toText = b.toText := by
  unfold sameKey
  rcases h with h | h
  · simp [h]
  · cases a.integer? <;> simp [h]

/-- The same key is transitive on exactly the sets in which texts tell as much as integers, wherever
a value without an integer makes a text the key of one with an integer. -/
theorem sameKey_trans_iff {S : Set Value} : SameKeyTrans S ↔ TextsTell S := by
  constructor
  · intro h u hu v hv w hw i j hnone hi hj htext
    have huv : u.sameKey v := (sameKey_of_none (.inl hnone)).2 htext
    constructor
    · rintro rfl
      have huw := h u hu v hv w hw huv ((sameKey_of_some hi hj).2 rfl)
      exact htext.symm.trans ((sameKey_of_none (.inl hnone)).1 huw)
    · intro heq
      have huw : u.sameKey w := (sameKey_of_none (.inl hnone)).2 (htext.trans heq)
      exact (sameKey_of_some hi hj).1 (h v hv u hu w hw (sameKey_comm u v ▸ huv) huw)
  · intro h a ha b hb c hc hab hbc
    -- where exactly two of the three have integers, the third makes a text the key of these
    cases hi : a.integer? with
    | none =>
      rw [sameKey_of_none (.inl hi)] at hab ⊢
      cases hj : b.integer? with
      | none => exact hab.trans ((sameKey_of_none (.inl hj)).1 hbc)
      | some j =>
        cases hk : c.integer? with
        | none => exact hab.trans ((sameKey_of_none (.inr hk)).1 hbc)
        | some k =>
          have hjk := (sameKey_of_some hj hk).1 hbc
          exact hab.trans ((h a ha b hb c hc j k hi hj hk hab).1 hjk)
    | some i =>
      cases hj : b.integer? with
      | none =>
        rw [sameKey_of_none (.inr hj)] at hab
        rw [sameKey_of_none (.inl hj)] at hbc
        cases hk : c.integer? with
        | none => exact (sameKey_of_none (.inr hk)).2 (hab.trans hbc)
        | some k =>
          rw [sameKey_of_some hi hk]
          exact (h b hb a ha c hc i k hj hi hk hab.symm).2 (hab.trans hbc)
      | some j =>
        rw [sameKey_of_some hi hj] at hab
        cases hk : c.integer? with
        | none =>
          rw [sameKey_of_none (.inr hk)] at hbc ⊢
          exact ((h c hc b hb a ha j i hk hj hi hbc.symm).1 hab.symm).symm.trans hbc
        | some k => exact (sameKey_of_some hi hk).2 (hab.trans ((sameKey_of_some hj hk).1 hbc))

/-- Being the same key is transitive among values that keep their integers. -/
theorem sameKeyTrans_of_keepsInteger {S : Set Value} (h : ∀ v ∈ S, v.KeepsInteger) :
    SameKeyTrans S := by
  intro a ha b hb c hc hab hbc
  rw [sameKey_iff_keyClass (h a ha) (h b hb)] at hab
  rw [sameKey_iff_keyClass (h b hb) (h c hc)] at hbc
  exact (sameKey_iff_keyClass (h a ha) (h c hc)).2 (hab.trans hbc)

/-- Being the same key is reflexive and symmetric on all values. It is an equivalence on a set of
values exactly if, wherever a value without an integer has the text of one with an integer, texts
tell values with integers apart as their integers do. Among values that keep their integers it is
one, with a class for each integer and each text; and all plain values keep their integers. -/
theorem sameKey_equivalence (S : Set Value) :
    (∀ a b : Value, a.sameKey a ∧ (a.sameKey b → b.sameKey a)) ∧
    ((Equivalence fun a b : S => a.1.sameKey b.1) ↔ TextsTell S) ∧
    ((∀ v ∈ S, v.KeepsInteger) → TextsTell S ∧
      ∀ a ∈ S, ∀ b ∈ S, (a.sameKey b ↔ a.keyClass = b.keyClass)) ∧
    ∀ v : Value, v.IsPlain → v.KeepsInteger := by
  refine ⟨fun a b => ⟨sameKey_self a, fun h => sameKey_comm a b ▸ h⟩, ?_, fun h => ⟨?_, ?_⟩,
    fun v => IsPlain.keepsInteger⟩
  · rw [← sameKey_trans_iff]
    constructor
    · intro h a ha b hb c hc hab hbc
      exact @Equivalence.trans _ _ h ⟨a, ha⟩ ⟨b, hb⟩ ⟨c, hc⟩ hab hbc
    · intro h
      exact ⟨fun a => sameKey_self a.1, fun {a b} hab => sameKey_comm a.1 b.1 ▸ hab,
        fun {a b c} => h a a.2 b b.2 c c.2⟩
  · exact sameKey_trans_iff.1 (sameKeyTrans_of_keepsInteger h)
  · exact fun a ha b hb => sameKey_iff_keyClass (h a ha) (h b hb)

/-- Five as a text with a blank and a sign, as an integer and in floating point. -/
theorem sameKey_equivalence_five :
    (Value.text " +5").IsPlain ∧ (Value.int 5).IsPlain ∧
      (Value.double ⟨0x4014000000000000⟩).IsPlain ∧ Value.sameKey (.text " +5") (.int 5) ∧
        Value.sameKey (.int 5) (.double ⟨0x4014000000000000⟩) ∧
          Value.sameKey (.text " +5") (.double ⟨0x4014000000000000⟩) := by
  have htext : (Value.text " +5").IsPlain := trivial
  have hint : (Value.int 5).IsPlain := trivial
  have hdouble : (Value.double ⟨0x4014000000000000⟩).IsPlain := by
    intro n hn
    have hfive : (⟨0x4014000000000000⟩ : Binary64).integer? = some 5 := by decide
    cases hfive.symm.trans hn
    decide
  have hfirst : Value.sameKey (.text " +5") (.int 5) = true := by decide
  have hsecond : Value.sameKey (.int 5) (.double ⟨0x4014000000000000⟩) = true := by decide
  obtain ⟨-, hiff, htells, hkeeps⟩ := sameKey_equivalence {v | v.IsPlain}
  have hequivalence := hiff.2 (htells hkeeps).1
  exact ⟨htext, hint, hdouble, hfirst, hsecond, @Equivalence.trans _ _ hequivalence ⟨_, htext⟩
    ⟨_, hint⟩ ⟨_, hdouble⟩ hfirst hsecond⟩

/-- The bytes of a numeral with a zero in front are the same key as the numeral as a text, and that
is the same key as the integer, but the bytes are not. -/
theorem not_sameKey_trans :
    (Value.sameKey (.bytes [0x30, 0x35]) (.text "05") ∧ Value.sameKey (.text "05") (.int 5) ∧
      ¬ Value.sameKey (.bytes [0x30, 0x35]) (.int 5)) ∧
    ¬ ∀ a b c : Value, a.isNull = false → b.isNull = false → c.isNull = false →
      a.sameKey b → b.sameKey c → a.sameKey c := by
  have hfirst : Value.sameKey (.bytes [0x30, 0x35]) (.text "05") = true := by decide
  have hsecond : Value.sameKey (.text "05") (.int 5) = true := by decide
  have hthird : ¬ Value.sameKey (.bytes [0x30, 0x35]) (.int 5) = true := by decide
  exact ⟨⟨hfirst, hsecond, hthird⟩, fun h => hthird (h _ _ _ rfl rfl rfl hfirst hsecond)⟩

end Value

end ShardRouting
