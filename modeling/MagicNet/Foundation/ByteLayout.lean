import Mathlib.Tactic
import Mathlib.Data.Nat.Digits.Defs

/-!
# Byte memory and the layout of records in it

Memory is a function from addresses to bytes.  A `Field` is a run of bytes at an offset; a
record is written by storing its fields one after the other (`fill`), and reading a record back
is reading little-endian words (`loadWord`) and NUL-terminated strings (`cstring`) at offsets.

* `loadWord_eq_iff`, `cstring_eq_some_iff`: what is read is a given value exactly when the
  memory holds the value's bytes, so a record is read back exactly when its fields are held;
* `holds_fill`: disjoint fields are held after they have been stored;
* `holds_iff_agree`: a memory holds fields that another one holds exactly when the two agree on
  the bytes the fields cover.
-/

set_option autoImplicit false

namespace MagicNet.Foundation

/-- Byte-addressed memory. -/
abbrev Memory := ℕ → UInt8

/-- The `w` low bytes of `n`, lowest first. -/
def bytesLE : ℕ → ℕ → List UInt8
  | 0, _ => []
  | w + 1, n => UInt8.ofNat n :: bytesLE w (n / 256)

/-- The number whose bytes are given, lowest first. -/
def wordLE (bs : List UInt8) : ℕ := Nat.ofDigits 256 (bs.map UInt8.toNat)

/-- A number of `w` bytes is laid out in `w` bytes. -/
@[simp] theorem bytesLE_length (w n : ℕ) : (bytesLE w n).length = w := by
  induction w generalizing n with
  | zero => rfl
  | succ w ih => rw [bytesLE, List.length_cons, ih]

/-- The first byte is the lowest. -/
theorem wordLE_cons (b : UInt8) (bs : List UInt8) :
    wordLE (b :: bs) = b.toNat + 256 * wordLE bs := by
  unfold wordLE
  rw [List.map_cons, Nat.ofDigits_cons]

/-- Bytes give a number that fits into as many. -/
theorem wordLE_lt (bs : List UInt8) : wordLE bs < 256 ^ bs.length := by
  induction bs with
  | nil => decide
  | cons b bs ih =>
    have hb := b.toNat_lt
    rw [wordLE_cons, List.length_cons, Nat.pow_succ]
    omega

/-- Reading bytes and laying the number out again gives the bytes. -/
theorem bytesLE_wordLE (bs : List UInt8) : bytesLE bs.length (wordLE bs) = bs := by
  induction bs with
  | nil => rfl
  | cons b bs ih =>
    have hb := b.toNat_lt
    have hdiv : (b.toNat + 256 * wordLE bs) / 256 = wordLE bs := by omega
    have hlow : UInt8.ofNat (b.toNat + 256 * wordLE bs) = b := by
      apply UInt8.toNat_inj.mp
      rw [UInt8.toNat_ofNat']
      omega
    rw [wordLE_cons, List.length_cons, bytesLE, hdiv, hlow, ih]

/-- Laying a number out and reading it again cuts it to the bytes there are. -/
theorem wordLE_bytesLE (w n : ℕ) : wordLE (bytesLE w n) = n % 256 ^ w := by
  induction w generalizing n with
  | zero => simp [bytesLE, wordLE, Nat.mod_one]
  | succ w ih =>
    have hlow : (UInt8.ofNat n).toNat = n % 256 := UInt8.toNat_ofNat'
    rw [bytesLE, wordLE_cons, ih, hlow, Nat.pow_succ', Nat.mod_mul]

namespace Memory

variable (m : Memory)

/-- The `len` bytes from `off` on. -/
def load (off len : ℕ) : List UInt8 := (List.range len).map fun k => m (off + k)

/-- The memory after the bytes `bs` have been written from `off` on. -/
def store (off : ℕ) (bs : List UInt8) : Memory :=
  fun i => if off ≤ i ∧ i < off + bs.length then bs.getD (i - off) 0 else m i

/-- The little-endian word of `w` bytes at `off`. -/
def loadWord (w off : ℕ) : BitVec (8 * w) := BitVec.ofNat (8 * w) (wordLE (m.load off w))

/-- The string at `off`, up to its NUL, which is looked for in the next `limit` bytes. -/
def cstring : ℕ → ℕ → Option (List UInt8)
  | _, 0 => none
  | off, limit + 1 => if m off = 0 then some [] else (cstring (off + 1) limit).map (m off :: ·)

variable {m}

/-- A load gives the number of bytes asked for. -/
@[simp] theorem load_length (off len : ℕ) : (m.load off len).length = len := by
  simp [load]

/-- A load of no bytes is empty. -/
theorem load_zero (off : ℕ) : m.load off 0 = [] := rfl

/-- A load begins with the byte at its offset. -/
theorem load_succ (off len : ℕ) : m.load off (len + 1) = m off :: m.load (off + 1) len := by
  unfold load
  rw [List.range_succ_eq_map, List.map_cons, List.map_map]
  congr 1
  apply List.map_congr_left
  intro k _
  rw [Function.comp_apply, Nat.succ_eq_add_one, Nat.add_right_comm, Nat.add_assoc]

/-- Two loads that follow each other are one. -/
theorem load_add (off a b : ℕ) : m.load off (a + b) = m.load off a ++ m.load (off + a) b := by
  induction a generalizing off with
  | zero => rw [load_zero, Nat.zero_add, List.nil_append, Nat.add_zero]
  | succ a ih =>
    rw [Nat.add_right_comm, load_succ, load_succ, ih, List.cons_append, Nat.add_right_comm,
      Nat.add_assoc]

/-- What is loaded depends on the bytes of the range only. -/
theorem load_eq_load_iff {m' : Memory} (off len : ℕ) :
    m'.load off len = m.load off len ↔ ∀ k < len, m' (off + k) = m (off + k) := by
  unfold load
  rw [List.map_inj_left]
  simp only [List.mem_range]

/-- A word read is a given value exactly when the value's bytes are there. -/
theorem loadWord_eq_iff {w off : ℕ} {v : BitVec (8 * w)} :
    m.loadWord w off = v ↔ m.load off w = bytesLE w v.toNat := by
  have hpow : 2 ^ (8 * w) = 256 ^ w := by rw [Nat.pow_mul]
  have hword : (m.loadWord w off).toNat = wordLE (m.load off w) := by
    have hlt := wordLE_lt (m.load off w)
    rw [load_length] at hlt
    rw [loadWord, BitVec.toNat_ofNat, hpow, Nat.mod_eq_of_lt hlt]
  constructor
  · intro hv
    have hbytes := bytesLE_wordLE (m.load off w)
    rw [load_length] at hbytes
    rw [← hv, hword, hbytes]
  · intro hbytes
    apply BitVec.eq_of_toNat_eq
    rw [hword, hbytes, wordLE_bytesLE, ← hpow, Nat.mod_eq_of_lt v.isLt]

/-- A string read is a given one exactly when its bytes and a NUL are there. -/
theorem cstring_eq_some_iff {off limit : ℕ} {s : List UInt8} :
    m.cstring off limit = some s ↔
      s.length < limit ∧ 0 ∉ s ∧ m.load off (s.length + 1) = s ++ [0] := by
  induction limit generalizing off s with
  | zero => simp [cstring]
  | succ limit ih =>
    rw [cstring, load_succ]
    by_cases hzero : m off = 0
    · rw [if_pos hzero, Option.some.injEq]
      constructor
      · rintro rfl
        exact ⟨Nat.succ_pos _, List.not_mem_nil, by simp [hzero, load_zero]⟩
      · rintro ⟨-, hnul, hbytes⟩
        cases s with
        | nil => rfl
        | cons b s =>
          rw [List.cons_append, List.cons.injEq, hzero] at hbytes
          exact absurd (hbytes.1 ▸ List.mem_cons_self) hnul
    · rw [if_neg hzero, Option.map_eq_some_iff]
      cases s with
      | nil => simp [hzero]
      | cons b s =>
        simp only [List.cons.injEq, List.cons_append, List.mem_cons, List.length_cons, ih]
        constructor
        · rintro ⟨t, ⟨hlt, hnul, hbytes⟩, hb, rfl⟩
          exact ⟨by omega, fun h => h.elim (fun h0 => hzero (hb.trans h0.symm)) hnul, hb, hbytes⟩
        · rintro ⟨hlt, hnul, hb, hbytes⟩
          exact ⟨s, ⟨by omega, fun h => hnul (.inr h), hbytes⟩, hb, rfl⟩

end Memory

/-! ## Fields -/

/-- A run of bytes at an offset. -/
structure Field where
  offset : ℕ
  bytes : List UInt8

namespace Field

/-- The field covers the address. -/
def Covers (f : Field) (k : ℕ) : Prop := f.offset ≤ k ∧ k < f.offset + f.bytes.length

/-- The memory has the field's bytes in the field's place. -/
def HeldBy (f : Field) (m : Memory) : Prop := m.load f.offset f.bytes.length = f.bytes

/-- The fields have no byte in common. -/
def Apart (f g : Field) : Prop :=
  f.offset + f.bytes.length ≤ g.offset ∨ g.offset + g.bytes.length ≤ f.offset

end Field

/-- Store the fields one after the other. -/
def fill (m : Memory) (fields : List Field) : Memory :=
  fields.foldl (fun m f => m.store f.offset f.bytes) m

/-- A field that has just been stored is held. -/
theorem heldBy_store (m : Memory) (f : Field) : f.HeldBy (m.store f.offset f.bytes) := by
  unfold Field.HeldBy
  apply List.ext_getElem (Memory.load_length _ _)
  intro k hk hk'
  have hin : f.offset ≤ f.offset + k ∧ f.offset + k < f.offset + f.bytes.length := by omega
  simp [Memory.load, Memory.store, hk']

/-- It stays held when a field apart from it is stored. -/
theorem heldBy_store_of_apart {m : Memory} {f g : Field} (h : f.Apart g) (hf : f.HeldBy m) :
    f.HeldBy (m.store g.offset g.bytes) := by
  unfold Field.HeldBy at *
  rw [← hf, Memory.load_length]
  apply (Memory.load_eq_load_iff _ _).mpr
  intro k hk
  have hout : ¬ (g.offset ≤ f.offset + k ∧ f.offset + k < g.offset + g.bytes.length) := by
    rcases h with h | h <;> omega
  exact if_neg hout

/-- And when several are. -/
theorem heldBy_fill_of_apart {m : Memory} {f : Field} {fields : List Field}
    (h : ∀ g ∈ fields, f.Apart g) (hf : f.HeldBy m) : f.HeldBy (fill m fields) := by
  induction fields generalizing m with
  | nil => exact hf
  | cons g fields ih =>
    obtain ⟨hg, hrest⟩ := List.forall_mem_cons.mp h
    exact ih hrest (heldBy_store_of_apart hg hf)

/-- **Fields that lie apart are held after they have been stored.** -/
theorem holds_fill (m : Memory) {fields : List Field} (h : fields.Pairwise Field.Apart) :
    ∀ f ∈ fields, f.HeldBy (fill m fields) := by
  induction fields generalizing m with
  | nil => exact fun f hf => absurd hf List.not_mem_nil
  | cons g fields ih =>
    obtain ⟨hg, hrest⟩ := List.pairwise_cons.mp h
    have hfirst : g.HeldBy (fill (m.store g.offset g.bytes) fields) :=
      heldBy_fill_of_apart hg (heldBy_store m g)
    exact List.forall_mem_cons.mpr ⟨hfirst, ih _ hrest⟩

/-- **A memory holds the fields another one holds exactly when it agrees with it on the bytes
they cover.** -/
theorem holds_iff_agree {m m' : Memory} {fields : List Field} (h : ∀ f ∈ fields, f.HeldBy m) :
    (∀ f ∈ fields, f.HeldBy m') ↔ ∀ k, (∃ f ∈ fields, f.Covers k) → m' k = m k := by
  have hone : ∀ f ∈ fields, f.HeldBy m' ↔ ∀ k, f.Covers k → m' k = m k := by
    intro f hf
    have hm := h f hf
    unfold Field.HeldBy at *
    rw [← hm, Memory.load_length, Memory.load_eq_load_iff]
    constructor
    · rintro hagree k ⟨hle, hlt⟩
      have := hagree (k - f.offset) (by omega)
      rwa [Nat.add_sub_cancel' hle] at this
    · intro hagree k hk
      exact hagree _ ⟨Nat.le_add_right _ _, by omega⟩
  constructor
  · rintro hheld k ⟨f, hf, hk⟩
    exact (hone f hf).mp (hheld f hf) k hk
  · intro hagree f hf
    exact (hone f hf).mpr fun k hk => hagree k ⟨f, hf, hk⟩

end MagicNet.Foundation
