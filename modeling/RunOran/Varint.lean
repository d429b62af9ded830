import Mathlib.Data.Nat.Basic
import Mathlib.Data.List.Basic
import Mathlib.Data.Nat.Log
import Mathlib.Tactic.NormNum
import Mathlib.Tactic.Ring

/-!
# Base-128 varints and little-endian words

The two integer encodings of the protocol-buffer wire format. A *varint* carries
seven bits per byte, least significant group first, with the top bit set on every
byte but the last; a reader accepts at most ten bytes (five for a field tag). A
*fixed* word is the plain little-endian image of a 32- or 64-bit number.

Both directions are stated on `Nat`, so that one round trip serves every width:
`decodeGroups_encodeGroups` for varints, `ofLe_toLe` for fixed words.
-/

namespace Protobuf

/-- A byte string. -/
abbrev Bytes : Type := List UInt8

theorem toNat_ofNat_byte {n : Nat} (h : n < 256) : (UInt8.ofNat n).toNat = n := by
  rw [UInt8.toNat_ofNat']
  exact Nat.mod_eq_of_lt h

/-! ## Varints -/

/-- `n` as base-128 groups, at most `k + 1` of them (a larger `n` is cut). -/
def encodeGroups : Nat → Nat → Bytes
  | 0, n => [UInt8.ofNat n]
  | k + 1, n =>
    if n < 128 then [UInt8.ofNat n]
    else UInt8.ofNat (n % 128 + 128) :: encodeGroups k (n / 128)

/-- The varint of a number below `2 ^ 64`: ten groups are enough for it. -/
def encodeVarint (n : Nat) : Bytes := encodeGroups 9 n

/-- Read at most `k` groups. Fails when the input ends inside the number, or when
the `k`-th byte still announces another one. -/
def decodeGroups : Nat → Bytes → Option (Nat × Bytes)
  | 0, _ => none
  | _ + 1, [] => none
  | k + 1, b :: bs =>
    if b.toNat < 128 then some (b.toNat, bs)
    else (decodeGroups k bs).map fun p => (b.toNat - 128 + 128 * p.1, p.2)

/-- Read a 64-bit varint: ten bytes at most, bits above the 64th are dropped. -/
def decodeVarint (bs : Bytes) : Option (Nat × Bytes) :=
  (decodeGroups 10 bs).map fun p => (p.1 % 2 ^ 64, p.2)

/-- Reading back what was written, with room for `j + 1` groups on the writing
side and `k + 1` on the reading side. By induction on the reader's room: a number
that needs another group leaves a seven times smaller one for both. -/
theorem decodeGroups_encodeGroups :
    ∀ (k j n : Nat) (rest : Bytes), n < 128 ^ (k + 1) → n < 128 ^ (j + 1) →
      decodeGroups (k + 1) (encodeGroups j n ++ rest) = some (n, rest) := by
  intro k
  induction k with
  | zero =>
    intro j n rest hk hj
    have hn : n < 128 := by simpa using hk
    have hbyte := toNat_ofNat_byte (show n < 256 by omega)
    cases j with
    | zero => simp [encodeGroups, decodeGroups, hbyte, hn]
    | succ j => simp [encodeGroups, decodeGroups, hbyte, hn]
  | succ k ih =>
    intro j n rest hk hj
    cases j with
    | zero =>
      have hn : n < 128 := by simpa using hj
      have hbyte := toNat_ofNat_byte (show n < 256 by omega)
      simp [encodeGroups, decodeGroups, hbyte, hn]
    | succ j =>
      by_cases hn : n < 128
      · have hbyte := toNat_ofNat_byte (show n < 256 by omega)
        simp [encodeGroups, decodeGroups, hbyte, hn]
      · -- a group with the continuation bit, and a smaller number for the other groups
        have hbyte := toNat_ofNat_byte (show n % 128 + 128 < 256 by omega)
        have hk' : n / 128 < 128 ^ (k + 1) :=
          Nat.div_lt_of_lt_mul (by rw [Nat.mul_comm, ← Nat.pow_succ]; exact hk)
        have hj' : n / 128 < 128 ^ (j + 1) :=
          Nat.div_lt_of_lt_mul (by rw [Nat.mul_comm, ← Nat.pow_succ]; exact hj)
        rw [encodeGroups, if_neg hn, List.cons_append, decodeGroups, hbyte, if_neg (by omega),
          ih j (n / 128) rest hk' hj']
        simp only [Option.map_some, Option.some.injEq, Prod.mk.injEq, and_true]
        omega

/-- A 64-bit varint is read back, whatever follows it. -/
theorem decodeVarint_encodeVarint {n : Nat} (hn : n < 2 ^ 64) (rest : Bytes) :
    decodeVarint (encodeVarint n ++ rest) = some (n, rest) := by
  have hbound : n < 128 ^ (9 + 1) := lt_of_lt_of_le hn (by norm_num)
  rw [decodeVarint, encodeVarint, decodeGroups_encodeGroups 9 9 n rest hbound hbound]
  rw [Option.map_some, Nat.mod_eq_of_lt hn]

theorem encodeGroups_ne_nil (k n : Nat) : encodeGroups k n ≠ [] := by
  cases k with
  | zero => simp [encodeGroups]
  | succ k =>
    rw [encodeGroups]
    split <;> simp

/-- A small number takes few bytes, whatever room there is. -/
theorem length_encodeGroups_le {k : Nat} :
    ∀ {j n : Nat}, n < 128 ^ (j + 1) → (encodeGroups k n).length ≤ j + 1 := by
  induction k with
  | zero =>
    intro j n _
    simp [encodeGroups]
  | succ k ih =>
    intro j n hn
    rw [encodeGroups]
    split
    · simp
    · rename_i hbig
      cases j with
      | zero => exact absurd (by simpa using hn) hbig
      | succ j =>
        have hdiv : n / 128 < 128 ^ (j + 1) :=
          Nat.div_lt_of_lt_mul (by rw [Nat.mul_comm, ← Nat.pow_succ]; exact hn)
        rw [List.length_cons]
        exact Nat.succ_le_succ (ih hdiv)

/-- Seven bits a byte. -/
theorem length_encodeVarint_le (j : Nat) {n : Nat} (h : n < 128 ^ (j + 1)) :
    (encodeVarint n).length ≤ j + 1 := length_encodeGroups_le h

theorem length_encodeGroups_mono {k : Nat} :
    ∀ {m n : Nat}, m ≤ n → (encodeGroups k m).length ≤ (encodeGroups k n).length := by
  induction k with
  | zero =>
    intro m n _
    simp [encodeGroups]
  | succ k ih =>
    intro m n h
    rw [encodeGroups, encodeGroups]
    split
    · split
      · exact Nat.le_refl _
      · simp
    · rw [if_neg (by omega), List.length_cons, List.length_cons]
      exact Nat.succ_le_succ (ih (Nat.div_le_div_right h))

/-- A larger number takes no fewer bytes. -/
theorem length_encodeVarint_mono {m n : Nat} (h : m ≤ n) :
    (encodeVarint m).length ≤ (encodeVarint n).length := length_encodeGroups_mono h

/-- The bytes of a varint: one for every seven bits, and one for zero. -/
def varintSize (n : Nat) : Nat := Nat.log 128 n + 1

/-- Each group takes one digit off. -/
theorem length_encodeGroups {k : Nat} :
    ∀ {n : Nat}, n < 128 ^ (k + 1) → (encodeGroups k n).length = varintSize n := by
  induction k with
  | zero =>
    intro n hn
    rw [varintSize, Nat.log_of_lt (by simpa using hn), encodeGroups]
    rfl
  | succ k ih =>
    intro n hn
    rw [encodeGroups]
    split
    · rename_i hsmall
      rw [varintSize, Nat.log_of_lt hsmall]
      rfl
    · rename_i hbig
      have hdiv : n / 128 < 128 ^ (k + 1) :=
        Nat.div_lt_of_lt_mul (by rw [Nat.mul_comm, ← Nat.pow_succ]; exact hn)
      have hlog : 0 < Nat.log 128 n := Nat.log_pos (by decide) (Nat.le_of_not_lt hbig)
      rw [List.length_cons, ih hdiv, varintSize, varintSize, Nat.log_div_base]
      omega

theorem length_encodeVarint {n : Nat} (h : n < 2 ^ 64) : (encodeVarint n).length = varintSize n :=
  length_encodeGroups (lt_of_lt_of_le h (by norm_num))

/-! ## Fixed-width words -/

/-- The `k` low bytes of `n`, least significant first. -/
def toLe : Nat → Nat → Bytes
  | 0, _ => []
  | k + 1, n => UInt8.ofNat (n % 256) :: toLe k (n / 256)

/-- The number whose little-endian bytes these are. -/
def ofLe : Bytes → Nat
  | [] => 0
  | b :: bs => b.toNat + 256 * ofLe bs

@[simp] theorem length_toLe (k n : Nat) : (toLe k n).length = k := by
  induction k generalizing n with
  | zero => rfl
  | succ k ih => rw [toLe, List.length_cons, ih]

theorem ofLe_toLe : ∀ {k n : Nat}, n < 256 ^ k → ofLe (toLe k n) = n := by
  intro k
  induction k with
  | zero =>
    intro n hn
    have hzero : n = 0 := by simpa using hn
    rw [hzero]
    rfl
  | succ k ih =>
    intro n hn
    have hdiv : n / 256 < 256 ^ k :=
      Nat.div_lt_of_lt_mul (by rw [Nat.mul_comm, ← Nat.pow_succ]; exact hn)
    rw [toLe, ofLe, ih hdiv, toNat_ofNat_byte (Nat.mod_lt _ (by omega))]
    omega

/-- The complete 32-bit words of a packed array; a tail of fewer than four bytes
is not a word. -/
def words : Bytes → List Nat
  | b₀ :: b₁ :: b₂ :: b₃ :: rest => ofLe [b₀, b₁, b₂, b₃] :: words rest
  | _ => []

theorem words_toLe_append {w : Nat} (hw : w < 2 ^ 32) (rest : Bytes) :
    words (toLe 4 w ++ rest) = w :: words rest := by
  have hback : ofLe (toLe 4 w) = w := ofLe_toLe (by norm_num; exact hw)
  simp only [toLe, List.cons_append, List.nil_append, words]
  exact congrArg (· :: words rest) hback

/-- A packed array of 32-bit words is read back. -/
theorem words_flatMap_toLe {ws : List Nat} (h : ∀ w ∈ ws, w < 2 ^ 32) :
    words (ws.flatMap (toLe 4)) = ws := by
  induction ws with
  | nil => rfl
  | cons w ws ih =>
    rw [List.flatMap_cons, words_toLe_append (h w (List.mem_cons_self ..)),
      ih fun v hv => h v (List.mem_cons_of_mem _ hv)]

theorem length_flatMap_toLe (k : Nat) (ws : List Nat) :
    (ws.flatMap (toLe k)).length = k * ws.length := by
  induction ws with
  | nil => rfl
  | cons w ws ih =>
    rw [List.flatMap_cons, List.length_append, ih, length_toLe, List.length_cons]
    ring

end Protobuf
