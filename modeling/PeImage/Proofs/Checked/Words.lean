/-
Computing in machine words, where an operation without a result stops the program.

Elsewhere, sizes and positions are numbers without a bound, and a range that leaves its buffer is
cut. Here they are what a machine has: a sum must fit into its word, a difference must not be
negative, and what is indexed or cut out must be there.

* `Panic`, `Checked`: why a computation stops, and computations that may;
* `Checked.add`, `Checked.sub`, `Checked.slice` and the rest: the operations, each with the
  condition under which it goes through;
* `Checked.foldlM_eq`, `Checked.loop`, `Checked.loop_eq`: folds and loops, which go through if every
  step does and keeps an invariant.
-/
import PeImage.Bytes.Basic
import Mathlib

namespace PeImage

/-- Why a computation stops. -/
inductive Panic where
  /-- A sum or a product does not fit into its word, or a difference is negative. -/
  | overflow
  /-- A division by zero. -/
  | divideByZero
  /-- A shift by as many bits as the word has, or more. -/
  | shiftTooFar
  /-- An index or a range that is not there. -/
  | outOfBounds
  /-- A buffer of more bytes than a signed word counts. -/
  | tooLarge
  /-- A loop that goes on for longer than it has work. -/
  | unfinished
  deriving DecidableEq, Repr

/-- A computation that may stop. -/
abbrev Checked (α : Type) : Type := Except Panic α

namespace Checked

variable {α β σ : Type}

@[simp] lemma ok_bind (a : α) (f : α → Checked β) : (Except.ok a >>= f) = f a := rfl

@[simp] lemma pure_eq_ok (a : α) : (pure a : Checked α) = .ok a := rfl

/-! ### Arithmetic -/

/-- The sum of two words of the given number of bits. -/
def add (bits a b : ℕ) : Checked ℕ := if a + b < 2 ^ bits then .ok (a + b) else .error .overflow

/-- The product of two words of the given number of bits. -/
def mul (bits a b : ℕ) : Checked ℕ := if a * b < 2 ^ bits then .ok (a * b) else .error .overflow

/-- The difference of two words. -/
def sub (a b : ℕ) : Checked ℕ := if b ≤ a then .ok (a - b) else .error .overflow

/-- The quotient of two words. -/
def div (a b : ℕ) : Checked ℕ := if b = 0 then .error .divideByZero else .ok (a / b)

/-- The remainder of two words. -/
def mod (a b : ℕ) : Checked ℕ := if b = 0 then .error .divideByZero else .ok (a % b)

/-- The quotient of two words of the given number of bits, rounded up. -/
def divUp (bits a b : ℕ) : Checked ℕ := do
  let whole ← div a b
  if (← mod a b) > 0 then add bits whole 1 else return whole

/-- The distance of a shift in a word of the given number of bits. -/
def distance (bits n : ℕ) : Checked ℕ := if n < bits then .ok n else .error .shiftTooFar

lemma add_eq {bits a b : ℕ} (h : a + b < 2 ^ bits) : add bits a b = .ok (a + b) := if_pos h

lemma mul_eq {bits a b : ℕ} (h : a * b < 2 ^ bits) : mul bits a b = .ok (a * b) := if_pos h

lemma sub_eq {a b : ℕ} (h : b ≤ a) : sub a b = .ok (a - b) := if_pos h

lemma div_eq {a b : ℕ} (h : b ≠ 0) : div a b = .ok (a / b) := if_neg h

lemma mod_eq {a b : ℕ} (h : b ≠ 0) : mod a b = .ok (a % b) := if_neg h

lemma divUp_eq {bits a b : ℕ} (hb : b ≠ 0) (h : a / b + 1 < 2 ^ bits) :
    divUp bits a b = .ok ((a + (b - 1)) / b) := by
  have hpos := Nat.pos_of_ne_zero hb
  have hmod := Nat.mod_lt a hpos
  have hup : (a + (b - 1)) / b = a / b + (a % b + (b - 1)) / b := by
    rw [← Nat.mul_add_div hpos, ← Nat.add_assoc, Nat.div_add_mod]
  rw [divUp, div_eq hb, ok_bind, mod_eq hb, ok_bind, hup]
  split_ifs with hrest
  · have hone : (a % b + (b - 1)) / b = 1 := Nat.div_eq_of_lt_le (by omega) (by omega)
    rw [hone, add_eq h]
  · have hzero : (a % b + (b - 1)) / b = 0 := Nat.div_eq_of_lt (by omega)
    rw [hzero]
    rfl

lemma distance_eq {bits n : ℕ} (h : n < bits) : distance bits n = .ok n := if_pos h

/-- The sum of two words of 32 bits. -/
def add32 (a b : UInt32) : Checked UInt32 :=
  if a.toNat + b.toNat < 2 ^ 32 then .ok (a + b) else .error .overflow

/-- The difference of two words of 32 bits. -/
def sub32 (a b : UInt32) : Checked UInt32 := if b ≤ a then .ok (a - b) else .error .overflow

/-- The quotient of two words of 32 bits. -/
def div32 (a b : UInt32) : Checked UInt32 := if b = 0 then .error .divideByZero else .ok (a / b)

lemma add32_eq {a b : UInt32} (h : a.toNat + b.toNat < 2 ^ 32) : add32 a b = .ok (a + b) :=
  if_pos h

lemma sub32_eq {a b : UInt32} (h : b ≤ a) : sub32 a b = .ok (a - b) := if_pos h

lemma div32_eq {a b : UInt32} (h : b ≠ 0) : div32 a b = .ok (a / b) := if_neg h

/-! ### Ranges -/

/-- The range from `start` to `stop` lies in what has `size` elements. -/
def within (start stop size : ℕ) : Checked Unit :=
  if start ≤ stop ∧ stop ≤ size then .ok () else .error .outOfBounds

/-- The bytes of a buffer from `start` to `stop`. -/
def slice (b : ByteArray) (start stop : ℕ) : Checked ByteArray := do
  within start stop b.size
  return b.extract start stop

/-- The buffer with the bytes from `start` to `stop` replaced by as many others. -/
def replace (b : ByteArray) (start stop : ℕ) (src : ByteArray) : Checked ByteArray := do
  within start stop b.size
  if src.size = stop - start then return overwrite b start src else throw .outOfBounds

/-- A blank buffer. -/
def blank (n : ℕ) : Checked ByteArray := if n < 2 ^ 63 then .ok (zeros n) else .error .tooLarge

/-- The byte at a position of a buffer. -/
def byte (b : ByteArray) (i : ℕ) : Checked UInt8 :=
  if i < b.size then .ok (byteAt b i) else .error .outOfBounds

/-- The element at a position of a list. -/
def get (l : List α) (i : ℕ) : Checked α :=
  match l[i]? with
  | some a => .ok a
  | none => .error .outOfBounds

lemma within_eq {start stop size : ℕ} (h : start ≤ stop) (hs : stop ≤ size) :
    within start stop size = .ok () := if_pos ⟨h, hs⟩

lemma slice_eq {b : ByteArray} {start stop : ℕ} (h : start ≤ stop) (hs : stop ≤ b.size) :
    slice b start stop = .ok (b.extract start stop) := by
  rw [slice, within_eq h hs]
  rfl

lemma replace_eq {b src : ByteArray} {start stop : ℕ} (h : start ≤ stop) (hs : stop ≤ b.size)
    (hsrc : src.size = stop - start) : replace b start stop src = .ok (overwrite b start src) := by
  rw [replace, within_eq h hs, ok_bind, if_pos hsrc]
  rfl

lemma blank_eq {n : ℕ} (h : n < 2 ^ 63) : blank n = .ok (zeros n) := if_pos h

lemma byte_eq {b : ByteArray} {i : ℕ} (h : i < b.size) : byte b i = .ok (byteAt b i) := if_pos h

lemma get_eq {l : List α} {i : ℕ} {a : α} (h : l[i]? = some a) : get l i = .ok a := by
  rw [get, h]

/-! ### Loops -/

/-- A fold goes through if every step does, and keeps an invariant that may look at what is left. -/
theorem foldlM_eq (Inv : σ → List α → Prop) {f : σ → α → Checked σ} {g : σ → α → σ}
    (hstep : ∀ s a rest, Inv s (a :: rest) → f s a = .ok (g s a) ∧ Inv (g s a) rest)
    {s : σ} {l : List α} (hs : Inv s l) : l.foldlM f s = .ok (l.foldl g s) := by
  induction l generalizing s with
  | nil => rfl
  | cons a rest ih =>
      obtain ⟨hok, hinv⟩ := hstep s a rest hs
      rw [List.foldlM_cons, hok, ok_bind, List.foldl_cons, ih hinv]

lemma mapM_eq {f : α → Checked β} {g : α → β} {l : List α} (h : ∀ a ∈ l, f a = .ok (g a)) :
    l.mapM f = .ok (l.map g) := by
  induction l with
  | nil => rfl
  | cons a rest ih =>
      rw [List.mapM_cons, h a List.mem_cons_self, ok_bind,
        ih fun b hb => h b (List.mem_cons_of_mem a hb)]
      rfl

/-- What a round of a loop leaves: a state for the next round, or the result. -/
inductive Round (σ α : Type) where
  /-- The loop goes on. -/
  | next (s : σ)
  /-- The loop is done. -/
  | done (a : α)

/-- A loop of at most `n` rounds. -/
def loop (body : σ → Checked (Round σ α)) : ℕ → σ → Checked α
  | 0, _ => .error .unfinished
  | n + 1, s =>
    match body s with
    | .error panic => .error panic
    | .ok (.done a) => .ok a
    | .ok (.next s) => loop body n s

/-- **Loops go through** if every round does, keeps the invariant and the result to come, and lowers
the amount of work. -/
theorem loop_eq (Inv : σ → Prop) (work : σ → ℕ) (result : σ → α) {body : σ → Checked (Round σ α)}
    (hround : ∀ s, Inv s → body s = .ok (.done (result s)) ∨
      ∃ t, body s = .ok (.next t) ∧ Inv t ∧ work t < work s ∧ result t = result s)
    {n : ℕ} {s : σ} (hs : Inv s) (hn : work s < n) : loop body n s = .ok (result s) := by
  induction n generalizing s with
  | zero => exact absurd hn (Nat.not_lt_zero _)
  | succ n ih =>
      rw [loop]
      rcases hround s hs with hdone | ⟨t, hnext, ht, hwork, hresult⟩
      · rw [hdone]
      · rw [hnext, ← hresult]
        exact ih ht (by omega)

end Checked

end PeImage
