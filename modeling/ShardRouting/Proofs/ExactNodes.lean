import Mathlib
import ShardRouting.Proofs.ExactArithmetic

/-!
# Nodes of expressions

What each node of an expression comes to, given what its operands come to: the integer that it
stands for where that is in range, an overflow where it is not, and a division by zero where the
divisor is zero. No function of a parsed expression is called with a number of arguments that it
does not take.

* `Tree.ComesTo`: what a node returns, and how it fails.
* `Tree.comesTo_negate`, `Tree.comesTo_abs`, `Tree.comesTo_binary`: the nodes that calculate.
* `Derives.isAdmitted`, `Tree.eval_ne_argumentCount`: numbers of arguments.
* `Expression.isExact_of_parse`: all of it, for a parsed expression.
-/

namespace ShardRouting.Expression

open Integer (Fits)

variable {a b c : Int} {row : Row} {t : Tree} {s : Scalar}

/-! ### Nodes -/

/-- The value of a tree is there, and is this integer or is read as it. -/
def Tree.HasInteger (t : Tree) (row : Row) (a : Int) : Prop :=
  ∃ s w, t.eval row = .ok (some s) ∧ s.toInteger = .ok w ∧ w.toInt = a

/-- The value of a tree is this integer. -/
def Tree.Returns (t : Tree) (row : Row) (c : Int) : Prop :=
  ∃ w, t.eval row = .ok (some (.int w)) ∧ w.toInt = c

/-- A tree has no value, for the reason that a message gives. -/
def Tree.Fails (t : Tree) (row : Row) (message : String) : Prop :=
  ∃ fault, t.eval row = .error fault ∧ fault.message = message

/-- A node comes to the integer that it stands for, unless that is out of range or refused, and
divides by zero where it stands for none. -/
structure Tree.ComesTo (t : Tree) (row : Row) (stands : Int → Prop) (isRefused divides : Prop) :
    Prop where
  /-- The value is that integer where it is in range and not refused, and nothing else. -/
  returns : ∀ c, t.Returns row c ↔ stands c ∧ Fits c ∧ ¬ isRefused
  /-- Where it is out of range or refused there is an overflow, and nowhere else. -/
  overflows : t.Fails row "integer overflow" ↔ ∃ c, stands c ∧ (¬ Fits c ∨ isRefused)
  /-- The other failure is that of a divisor that is zero. -/
  dividesByZero : t.Fails row "division by zero" ↔ divides

theorem Tree.HasInteger.exact (h : t.HasInteger row a) :
    ∃ s, t.exact .leastByMinusOne row = .ok (some s) ∧ s.number = .ok a := by
  obtain ⟨s, w, heval, hw, rfl⟩ := h
  refine ⟨.ofScalar s, ?_, ?_⟩
  · rw [t.exact_eq, heval]
    rfl
  · rw [Exact.number_ofScalar, hw]
    rfl

theorem Tree.HasInteger.fits (h : t.HasInteger row a) : Fits a := by
  obtain ⟨s, w, -, -, rfl⟩ := h
  exact Integer.fits_toInt w

theorem Tree.returns_iff : t.Returns row c ↔ t.exact .leastByMinusOne row = .ok (some (.int c)) := by
  rw [t.exact_eq, Returns]
  rcases t.eval row with fault | _ | w | s <;> simp [Exact.ofScalar]

theorem Tree.fails_iff {message : String} : t.Fails row message ↔
    ∃ fault, t.exact .leastByMinusOne row = .error fault ∧ fault.message = message := by
  rw [t.exact_eq, Fails]
  rcases t.eval row with fault | v <;> simp

/-- A node whose exact integer is checked comes to that integer. -/
theorem Tree.comesTo_of_checked (h : t.exact .leastByMinusOne row = some <$> Exact.checked c) :
    t.ComesTo row (· = c) False False := by
  by_cases hc : Fits c
  · refine ⟨fun i => ?_, ?_, ?_⟩
    · have hvalue : t.Returns row i ↔ c = i := by simp [returns_iff, h, Exact.checked, hc]
      rw [hvalue]
      constructor
      · rintro rfl
        exact ⟨rfl, hc, id⟩
      · intro hi
        exact hi.1.symm
    · simp [fails_iff, h, Exact.checked, hc]
    · simp [fails_iff, h, Exact.checked, hc]
  · refine ⟨fun i => ?_, ?_, ?_⟩
    · have hvalue : ¬ t.Returns row i := by simp [returns_iff, h, Exact.checked, hc]
      rw [iff_false_left hvalue]
      rintro ⟨rfl, hfits, -⟩
      exact hc hfits
    · simp [fails_iff, h, Exact.checked, hc, EvalError.message]
    · simp [fails_iff, h, Exact.checked, hc, EvalError.message]

/-- A node that applies an operator comes to the integer that the operator stands for. -/
theorem Tree.comesTo_of_evaluate {op : Operator}
    (h : t.exact .leastByMinusOne row = some <$> op.evaluate .leastByMinusOne a b) :
    t.ComesTo row (op.Gives a b) (Refusal.leastByMinusOne op a b)
      ((op = .div ∨ op = .rem) ∧ b = 0) := by
  have hgives : op.Gives a b = fun c => op.result? a b = some c :=
    funext fun c => propext Operator.result?_eq_some_iff.symm
  rw [hgives, ← Operator.result?_eq_none_iff]
  rcases hexact : op.result? a b with _ | c
  · refine ⟨fun i => ?_, ?_, ?_⟩
    all_goals simp [returns_iff, fails_iff, h, Operator.evaluate, hexact, EvalError.message]
  · by_cases hrefused : Refusal.leastByMinusOne op a b = true
    · refine ⟨fun i => ?_, ?_, ?_⟩
      all_goals
        simp [returns_iff, fails_iff, h, Operator.evaluate, hexact, hrefused, EvalError.message]
    · have hchecked : t.exact .leastByMinusOne row = some <$> Exact.checked c := by
        simp [h, Operator.evaluate, hexact, hrefused]
      simpa [hrefused, eq_comm] using comesTo_of_checked hchecked

theorem Tree.comesTo_negate (h : t.HasInteger row a) :
    (Tree.negate t).ComesTo row (· = -a) False False := by
  obtain ⟨s, hs, ha⟩ := h.exact
  apply comesTo_of_checked
  rw [Tree.exact, hs]
  simp [bind, Except.bind, ha]

theorem Tree.comesTo_abs (h : t.HasInteger row a) :
    (Tree.call .abs [t]).ComesTo row (· = |a|) False False := by
  obtain ⟨s, hs, ha⟩ := h.exact
  apply comesTo_of_checked
  simp [Tree.exact, exactAll, Function.exact, hs, bind, Except.bind, ha]

theorem Tree.comesTo_binary {op : Operator} {left right : Tree} (ha : left.HasInteger row a)
    (hb : right.HasInteger row b) :
    (Tree.binary op left right).ComesTo row (op.Gives a b) (Refusal.leastByMinusOne op a b)
      ((op = .div ∨ op = .rem) ∧ b = 0) := by
  obtain ⟨s, hs, ha⟩ := ha.exact
  obtain ⟨u, hu, hb⟩ := hb.exact
  apply comesTo_of_evaluate
  rw [Tree.exact, hs, hu]
  simp [bind, Except.bind, ha, hb]

/-- A remainder is in range if the divisor is. -/
theorem Divides.fits_remainder {q r : Int} (h : Divides a b q r) (hb : Fits b) : Fits r := by
  have hsmaller := h.smaller
  simp only [Fits, Integer.least, Integer.greatest] at hb ⊢
  omega

/-- A remainder overflows just where the least integer is divided by minus one. -/
theorem Tree.rem_overflows_iff {left right : Tree} (ha : left.HasInteger row a)
    (hb : right.HasInteger row b) :
    (Tree.binary .rem left right).Fails row "integer overflow" ↔ a = Integer.least ∧ b = -1 := by
  rw [(Tree.comesTo_binary ha hb).overflows]
  have hfits : ∀ c, Operator.rem.Gives a b c → Fits c := by
    rintro c ⟨q, hdivides⟩
    exact hdivides.fits_remainder hb.fits
  constructor
  · rintro ⟨c, hgives, hout | hrefused⟩
    · exact absurd (hfits c hgives) hout
    · simpa [Refusal.leastByMinusOne] using hrefused
  · rintro ⟨rfl, rfl⟩
    exact ⟨0, ⟨9223372036854775808, by decide, by decide, by decide, by decide⟩, Or.inr rfl⟩

/-! ### Numbers of arguments -/

mutual

/-- Whether every call in a tree has a number of arguments that its function takes. -/
def Tree.isAdmitted : Tree → Bool
  | .literal _ | .column _ => true
  | .negate t => t.isAdmitted
  | .binary _ left right => left.isAdmitted && right.isAdmitted
  | .call f args => f.admits args.length && admittedAll args

/-- Whether every call in several trees has a number of arguments that its function takes. -/
def admittedAll : List Tree → Bool
  | [] => true
  | t :: ts => t.isAdmitted && admittedAll ts

end

theorem admittedAll_iff {ts : List Tree} :
    admittedAll ts = true ↔ ∀ t ∈ ts, t.isAdmitted = true := by
  induction ts with
  | nil => simp [admittedAll]
  | cons t ts ih => simp [admittedAll, ih]

theorem isAdmitted_grouped {more : List RightOperand} (ht : t.isAdmitted)
    (hmore : ∀ o ∈ more, o.tree.isAdmitted) : (grouped t more).isAdmitted := by
  induction more generalizing t with
  | nil => exact ht
  | cons o more ih =>
    obtain ⟨ho, hmore⟩ := List.forall_mem_cons.1 hmore
    have hnext : (Tree.binary o.op t o.tree).isAdmitted := by
      simp [Tree.isAdmitted, ht, ho]
    exact ih hnext hmore

/-- The calls in a phrase have numbers of arguments that their functions take. -/
theorem Derives.isAdmitted {phrase : Phrase} {ts : List Token} (h : Derives phrase ts t) :
    t.isAdmitted := by
  induction h with
  | sum _ _ _ ihFirst ihOperands | product _ _ _ ihFirst ihOperands =>
    exact isAdmitted_grouped ihFirst ihOperands
  | negate _ ih => rwa [Tree.isAdmitted]
  | bare _ ih | group _ ih => exact ih
  | int | text | column => rw [Tree.isAdmitted]
  | call _ admitted _ ih =>
    rw [Tree.isAdmitted, List.length_map, admitted, Bool.true_and, admittedAll_iff]
    exact List.forall_mem_map.2 ih

theorem Scalar.toInteger_ne_argumentCount : s.toInteger ≠ .error .argumentCount := by
  unfold Scalar.toInteger
  split
  · simp
  · split <;> simp

theorem Scalar.ofExact_ne_argumentCount {i : Int} : Scalar.ofExact i ≠ .error .argumentCount := by
  unfold Scalar.ofExact
  split <;> simp

theorem Operator.apply_ne_argumentCount {op : Operator} {i j : Int64} :
    op.apply i j ≠ .error .argumentCount := by
  cases op with
  | add | sub | mul => exact Scalar.ofExact_ne_argumentCount
  | div | rem =>
    rw [Operator.apply]
    split_ifs <;> simp [Scalar.ofExact_ne_argumentCount]

/-- A function that takes this number of arguments does not complain about it. -/
theorem Function.apply_ne_argumentCount {f : Function} {args : List Scalar}
    (hadmits : f.admits args.length) (hf : f ≠ .coalesce) :
    f.apply args ≠ .error .argumentCount := by
  cases f with
  | hash | crc32 =>
    obtain ⟨s, rfl⟩ := List.length_eq_one_iff.1 (by simpa [admits] using hadmits)
    simp [Function.apply]
  | abs =>
    obtain ⟨s, rfl⟩ := List.length_eq_one_iff.1 (by simpa [admits] using hadmits)
    exact bind_ne_error Scalar.toInteger_ne_argumentCount fun i _ =>
      Scalar.ofExact_ne_argumentCount
  | substr =>
    rcases args with _ | ⟨s, _ | ⟨start, _ | ⟨length, _ | _⟩⟩⟩
    · simp [admits] at hadmits
    · simp [admits] at hadmits
    · exact bind_ne_error Scalar.toInteger_ne_argumentCount fun i _ => by simp
    · refine bind_ne_error Scalar.toInteger_ne_argumentCount fun i _ => ?_
      exact bind_ne_error Scalar.toInteger_ne_argumentCount fun j _ => by simp
    · simp [admits] at hadmits
  | concat => simp [Function.apply]
  | coalesce => exact absurd rfl hf

theorem length_of_evalAll {ts : List Tree} {vs : List (Option Scalar)}
    (h : evalAll row ts = .ok vs) : vs.length = ts.length := by
  induction ts generalizing vs with
  | nil =>
    rw [evalAll] at h
    cases h
    rfl
  | cons t ts ih =>
    rw [evalAll] at h
    obtain ⟨v, -, h⟩ := bind_eq_ok_iff.1 h
    obtain ⟨rest, hrest, h⟩ := bind_eq_ok_iff.1 h
    cases h
    simp [ih hrest]

theorem length_of_allPresent {vs : List (Option Scalar)} {present : List Scalar}
    (h : allPresent vs = some present) : present.length = vs.length := by
  induction vs generalizing present with
  | nil =>
    cases h
    rfl
  | cons v vs ih =>
    rcases v with _ | s
    · cases h
    · rw [allPresent, Option.map_eq_some_iff] at h
      obtain ⟨rest, hrest, rfl⟩ := h
      simp [ih hrest]

mutual

/-- Where calls have numbers of arguments that their functions take, no function is called with
another. -/
theorem Tree.eval_ne_argumentCount {row : Row} :
    (t : Tree) → t.isAdmitted → t.eval row ≠ .error .argumentCount
  | .literal s, _ => by simp [Tree.eval]
  | .column name, _ => by simp [Tree.eval]
  | .negate t, h => by
    rw [Tree.isAdmitted] at h
    rw [Tree.eval]
    refine bind_ne_error (t.eval_ne_argumentCount h) fun v _ => ?_
    rcases v with _ | s
    · simp
    · exact bind_ne_error Scalar.toInteger_ne_argumentCount fun i _ =>
        map_ne_error Scalar.ofExact_ne_argumentCount
  | .binary op left right, h => by
    rw [Tree.isAdmitted, Bool.and_eq_true] at h
    rw [Tree.eval]
    refine bind_ne_error (left.eval_ne_argumentCount h.1) fun u _ => ?_
    refine bind_ne_error (right.eval_ne_argumentCount h.2) fun v _ => ?_
    rcases u with _ | a
    · simp
    · rcases v with _ | b
      · simp
      · refine bind_ne_error Scalar.toInteger_ne_argumentCount fun i _ => ?_
        exact bind_ne_error Scalar.toInteger_ne_argumentCount fun j _ =>
          map_ne_error Operator.apply_ne_argumentCount
  | .call f args, h => by
    rw [Tree.isAdmitted, Bool.and_eq_true] at h
    by_cases hf : f = .coalesce
    · rw [hf, Tree.eval]
      exact firstPresent_ne_argumentCount args h.2
    · rw [Tree.eval]
      · refine bind_ne_error (evalAll_ne_argumentCount args h.2) fun vs hvs => ?_
        rcases hpresent : allPresent vs with _ | present
        · simp
        · have hlength : present.length = args.length := by
            rw [length_of_allPresent hpresent, length_of_evalAll hvs]
          exact map_ne_error (Function.apply_ne_argumentCount (hlength ▸ h.1) hf)
      · exact hf

/-- The same for the values of several trees. -/
theorem evalAll_ne_argumentCount {row : Row} :
    (ts : List Tree) → admittedAll ts → evalAll row ts ≠ .error .argumentCount
  | [], _ => by simp [evalAll]
  | t :: ts, h => by
    rw [admittedAll, Bool.and_eq_true] at h
    rw [evalAll]
    refine bind_ne_error (t.eval_ne_argumentCount h.1) fun v _ => ?_
    exact bind_ne_error (evalAll_ne_argumentCount ts h.2) fun vs _ => by simp

/-- The same for the first value that is there. -/
theorem firstPresent_ne_argumentCount {row : Row} :
    (ts : List Tree) → admittedAll ts → firstPresent row ts ≠ .error .argumentCount
  | [], _ => by simp [firstPresent]
  | t :: ts, h => by
    rw [admittedAll, Bool.and_eq_true] at h
    rw [firstPresent]
    refine bind_ne_error (t.eval_ne_argumentCount h.1) fun v _ => ?_
    rcases v with _ | s
    · exact firstPresent_ne_argumentCount ts h.2
    · simp

end

/-! ### Parsed expressions -/

/-- The evaluation of an expression on a row is exact: it agrees with the reference, every node with
integers as operands comes to the integer that it stands for, and no function is called with a
number of arguments that it does not take. -/
structure IsExact (refused : Refusal) (e : Expression) (row : Row) : Prop where
  /-- The value is that of the reference, or the failure is. -/
  agrees : e.root.exact refused row = Option.map Exact.ofScalar <$> e.eval row
  /-- A negation comes to the negative integer. -/
  negate : ∀ t a, Tree.HasInteger t row a →
    (Tree.negate t).ComesTo row (fun c => c = -a) False False
  /-- A magnitude comes to the absolute value. -/
  abs : ∀ t a, Tree.HasInteger t row a →
    (Tree.call .abs [t]).ComesTo row (fun c => c = |a|) False False
  /-- An operator comes to the integer that it stands for, and divides by zero where it is a
  division or a remainder and its divisor is zero. -/
  binary : ∀ op left right a b, Tree.HasInteger left row a → Tree.HasInteger right row b →
    (Tree.binary op left right).ComesTo row (op.Gives a b) (refused op a b = true)
      ((op = .div ∨ op = .rem) ∧ b = 0)
  /-- No function is called with another number of arguments than it takes. -/
  admitted : e.eval row ≠ .error .argumentCount

/-- A parsed expression is evaluated exactly, or refused: a result is exact where it is in range, and
an overflow is reported just where it is not, except for the remainder of the least integer by minus
one, which is reported as an overflow, too, and is the only remainder that is. -/
theorem isExact_of_parse {source : String} {e : Expression}
    (hparse : Expression.parse source = .ok e) (row : Row) :
    e.IsExact .leastByMinusOne row ∧
      ∀ left right a b, Tree.HasInteger left row a → Tree.HasInteger right row b →
        ((Tree.binary .rem left right).Fails row "integer overflow" ↔
          a = Integer.least ∧ b = -1) := by
  obtain ⟨-, tokens, -, htree⟩ := parse_source_eq_ok_iff.1 hparse
  have hadmitted := (derives_of_parse htree).isAdmitted
  refine ⟨?_, fun _ _ _ _ ha hb => Tree.rem_overflows_iff ha hb⟩
  exact {
    agrees := e.root.exact_eq
    negate := fun _ _ ha => Tree.comesTo_negate ha
    abs := fun _ _ ha => Tree.comesTo_abs ha
    binary := fun _ _ _ _ _ ha hb => Tree.comesTo_binary ha hb
    admitted := e.root.eval_ne_argumentCount hadmitted }

/-- An expression with each kind of arithmetic node. -/
def ratio : Expression where
  source := "abs(${a}) / -${b}"
  root := .binary .div (.call .abs [.column "a"]) (.negate (.column "b"))

/-- Quotients are rounded toward zero, and operands may be texts; the magnitude of the least integer
is out of range, and zero divides nothing. -/
theorem isExact_of_parse_ratio :
    parse ratio.source = .ok ratio ∧
      ratio.IsExact .leastByMinusOne [("a", .text " -7 "), ("b", .int 2)] ∧
      ratio.eval [("a", .text " -7 "), ("b", .int 2)] = .ok (some (.int (-3))) ∧
      ratio.eval [("a", .int (-9223372036854775808)), ("b", .int 2)] = .error .overflow ∧
      ratio.eval [("a", .int 7), ("b", .bool false)] = .error .divisionByZero := by
  have hparse : parse ratio.source = .ok ratio := by cbv
  refine ⟨hparse, ?_, by decide +kernel, by decide +kernel, by decide +kernel⟩
  exact (isExact_of_parse hparse _).1

/-- A remainder of two columns. -/
def remainder : Expression where
  source := "${a} % ${b}"
  root := .binary .rem (.column "a") (.column "b")

/-- A row with the least integer and minus one. -/
def leastRow : Row := [("a", .int (-9223372036854775808)), ("b", .int (-1))]

/-- Without the refusal of the one remainder, evaluation is not exact: the least integer leaves the
remainder zero by minus one, which is in range, but an overflow is reported. -/
theorem not_isExact_never :
    parse remainder.source = .ok remainder ∧ Operator.rem.Gives Integer.least (-1) 0 ∧ Fits 0 ∧
      remainder.root.exact .never leastRow = .ok (some (.int 0)) ∧
      remainder.eval leastRow = .error .overflow ∧ ¬ remainder.IsExact .never leastRow := by
  have hgives : Operator.rem.Gives Integer.least (-1) 0 :=
    ⟨9223372036854775808, by decide, by decide, by decide, by decide⟩
  have hexact : remainder.root.exact .never leastRow = .ok (some (.int 0)) := by decide +kernel
  have heval : remainder.eval leastRow = .error .overflow := by decide +kernel
  refine ⟨by cbv, hgives, by decide, hexact, heval, fun h => ?_⟩
  have hagrees := h.agrees
  rw [hexact, heval] at hagrees
  simp at hagrees

end ShardRouting.Expression
