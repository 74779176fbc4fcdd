/-
Airoha.Bmt.Tables — the two tables the bad-block manager keeps on flash.

`BmtTable` is `bmt_table` (which pool block replaces which system
block), `BbtTable` is `bbt_table` (the blocks known to be bad). Both are
written to flash as the raw bytes of the C object, so the layout is
part of the model: `byte` gives the byte at each offset of the object
(little endian, as on the target) and `decode` reads an object back from
the bytes of a page. `BmtTable.decode_eq` and `BbtTable.decode_eq` are
the round trips.

`bmt_checksum` sums `bmt_blks * sizeof(bmt_entry)` bytes whatever the size
of the table is, so with more than 250 pool blocks it reads past the
object. Those bytes are a parameter (`beyond`): the model says nothing
about them.
-/
import Mathlib

namespace Airoha.Bmt

/-! ## Little-endian 16-bit words -/

def lo16 (x : UInt16) : UInt8 := UInt8.ofNat x.toNat
def hi16 (x : UInt16) : UInt8 := UInt8.ofNat (x.toNat / 256)
def join16 (lo hi : UInt8) : UInt16 := UInt16.ofNat (lo.toNat + 256 * hi.toNat)

@[simp] theorem join16_lo16_hi16 (x : UInt16) : join16 (lo16 x) (hi16 x) = x := by
  have hx : x.toNat < 65536 := x.toNat_lt
  apply UInt16.toNat_inj.mp
  simp only [join16, lo16, hi16, UInt16.toNat_ofNat', UInt8.toNat_ofNat']
  omega

/-- The mapping bytes of an erased block read as `0xffff`, and no other
pair does. -/
theorem join16_eq_ffff {lo hi : UInt8} :
    join16 lo hi = 0xffff ↔ lo = 0xff ∧ hi = 0xff := by
  have hlo : lo.toNat < 256 := lo.toNat_lt
  have hhi : hi.toNat < 256 := hi.toNat_lt
  rw [← UInt16.toNat_inj, ← UInt8.toNat_inj, ← UInt8.toNat_inj]
  simp only [join16, UInt16.toNat_ofNat', UInt16.reduceToNat, UInt8.reduceToNat]
  omega

/-! ## `bmt_table` -/

def maxBmtSize : Nat := 250
def maxRawBadBlockSize : Nat := 250

/-- `bmt_entry`: system block `fromBlk` now lives in pool block `toBlk`. -/
structure BmtEntry where
  fromBlk : UInt16
  toBlk : UInt16
  deriving DecidableEq, Repr

/-- `bmt_table`: the 20-byte `bmt_table_header`, then the entries. -/
structure BmtTable where
  signature : UInt8 × UInt8 × UInt8
  version : UInt8
  badCount : UInt8
  size : UInt8
  checksum : UInt8
  reserved : Fin 13 → UInt8
  table : List BmtEntry
  table_length : table.length = maxBmtSize

theorem BmtTable.ext {t u : BmtTable} (h1 : t.signature = u.signature)
    (h2 : t.version = u.version) (h3 : t.badCount = u.badCount) (h4 : t.size = u.size)
    (h5 : t.checksum = u.checksum) (h6 : t.reserved = u.reserved)
    (h7 : t.table = u.table) : t = u := by
  cases t; cases u
  simp_all

/-- "BMT" -/
def bmtSignature : UInt8 × UInt8 × UInt8 := (0x42, 0x4d, 0x54)

/-- The object after `memset(&bmt, 0x00, sizeof(bmt))`. -/
def BmtTable.zero : BmtTable where
  signature := (0, 0, 0)
  version := 0
  badCount := 0
  size := 0
  checksum := 0
  reserved := fun _ => 0
  table := List.replicate maxBmtSize ⟨0, 0⟩
  table_length := List.length_replicate

/-- The entries in use, `table[0 .. header.size - 1]`. -/
def BmtTable.live (t : BmtTable) : List BmtEntry := t.table.take t.size.toNat

def BmtEntry.byte (e : BmtEntry) : Nat → UInt8
  | 0 => lo16 e.fromBlk
  | 1 => hi16 e.fromBlk
  | 2 => lo16 e.toBlk
  | _ => hi16 e.toBlk

/-- Byte `j` of `bmt.table`. -/
def BmtTable.tableByte (t : BmtTable) (j : Nat) : UInt8 :=
  (t.table.getD (j / 4) ⟨0, 0⟩).byte (j % 4)

def BmtTable.headerByte (t : BmtTable) : Nat → UInt8
  | 0 => t.signature.1
  | 1 => t.signature.2.1
  | 2 => t.signature.2.2
  | 3 => t.version
  | 4 => t.badCount
  | 5 => t.size
  | 6 => t.checksum
  | o + 7 => if h : o < 13 then t.reserved ⟨o, h⟩ else 0

/-- Byte `o` of the C object `bmt`. -/
def BmtTable.byte (t : BmtTable) (o : Nat) : UInt8 :=
  if o < 20 then t.headerByte o else t.tableByte (o - 20)

def sizeofBmt : Nat := 1020

/-- The object read from the first `sizeof(bmt)` bytes of a page. -/
def BmtTable.decode (p : Nat → UInt8) : BmtTable where
  signature := (p 0, p 1, p 2)
  version := p 3
  badCount := p 4
  size := p 5
  checksum := p 6
  reserved := fun i => p (7 + i.val)
  table := (List.range maxBmtSize).map fun i =>
    ⟨join16 (p (20 + 4 * i)) (p (21 + 4 * i)), join16 (p (22 + 4 * i)) (p (23 + 4 * i))⟩
  table_length := by simp

/-- A page that starts with the bytes of `t` decodes to `t`. -/
theorem BmtTable.decode_eq {t : BmtTable} {p : Nat → UInt8}
    (h : ∀ o, o < sizeofBmt → p o = t.byte o) : BmtTable.decode p = t := by
  have hh : ∀ o, o < 20 → p o = t.headerByte o := by
    intro o ho
    rw [h o (by simp only [sizeofBmt]; omega), BmtTable.byte, if_pos ho]
  apply BmtTable.ext
  · simp [decode, hh, headerByte]
  · simp [decode, hh, headerByte]
  · simp [decode, hh, headerByte]
  · simp [decode, hh, headerByte]
  · simp [decode, hh, headerByte]
  · funext i
    have hi := i.isLt
    have h7 : 7 + i.val = i.val + 7 := by omega
    simp only [decode]
    rw [hh (7 + i.val) (by omega), h7]
    simp [headerByte]
  · have hlen : t.table.length = 250 := t.table_length
    apply List.ext_getElem
    · simp [decode, hlen, maxBmtSize]
    · intro i h1 h2
      have hi : i < 250 := by omega
      have hb : ∀ k, k < 4 → p (20 + 4 * i + k) = (t.table[i]).byte k := by
        intro k hk
        have hdiv : (4 * i + k) / 4 = i := by omega
        have hmod : (4 * i + k) % 4 = k := by omega
        have hoff : 20 + 4 * i + k - 20 = 4 * i + k := by omega
        rw [h _ (by simp only [sizeofBmt]; omega), BmtTable.byte, if_neg (by omega), hoff,
          BmtTable.tableByte, hdiv, hmod, List.getD_eq_getElem _ _ h2]
      have e0 := hb 0 (by omega)
      have e1 := hb 1 (by omega)
      have e2 := hb 2 (by omega)
      have e3 := hb 3 (by omega)
      have o1 : 20 + 4 * i + 1 = 21 + 4 * i := by omega
      have o2 : 20 + 4 * i + 2 = 22 + 4 * i := by omega
      have o3 : 20 + 4 * i + 3 = 23 + 4 * i := by omega
      rw [Nat.add_zero] at e0
      rw [o1] at e1
      rw [o2] at e2
      rw [o3] at e3
      simp [decode, e0, e1, e2, e3, BmtEntry.byte]

/-- Decoding looks only at the bytes of the object. -/
theorem BmtTable.decode_congr {p q : Nat → UInt8} (h : ∀ o, o < sizeofBmt → p o = q o) :
    BmtTable.decode p = BmtTable.decode q := by
  have hs : sizeofBmt = 1020 := rfl
  apply BmtTable.ext
  · simp [decode, h, hs]
  · simp [decode, h, hs]
  · simp [decode, h, hs]
  · simp [decode, h, hs]
  · simp [decode, h, hs]
  · funext i
    have hi := i.isLt
    exact h _ (by omega)
  · simp only [decode]
    apply List.map_congr_left
    intro i hi
    have hi' : i < 250 := List.mem_range.mp hi
    rw [h _ (by omega), h _ (by omega), h _ (by omega), h _ (by omega)]

/-- `bmt_checksum`. -/
@[irreducible] def BmtTable.computeChecksum (beyond : Nat → UInt8) (bmtBlks : Nat) (t : BmtTable) :
    UInt8 :=
  (List.range (bmtBlks * 4)).foldl
    (fun checksum i => checksum + if i < maxBmtSize * 4 then t.tableByte i
      else beyond (i - maxBmtSize * 4))
    (t.version + t.size)

/-- The checks `parse_bmt` makes on an object read from flash. -/
def BmtTable.accepted (beyond : Nat → UInt8) (bmtBlks : Nat) (t : BmtTable) : Bool :=
  t.signature == bmtSignature && t.checksum == t.computeChecksum beyond bmtBlks

/-! ## `bbt_table` -/

/-- `bbt_table`: the 12-byte `bbt_table_header`, then the block numbers. -/
structure BbtTable where
  signature : UInt8 × UInt8 × UInt8 × UInt8
  checksum : UInt32
  version : UInt8
  size : UInt8
  reserved : UInt8 × UInt8
  table : List UInt16
  table_length : table.length = maxRawBadBlockSize

theorem BbtTable.ext {t u : BbtTable} (h1 : t.signature = u.signature)
    (h2 : t.checksum = u.checksum) (h3 : t.version = u.version) (h4 : t.size = u.size)
    (h5 : t.reserved = u.reserved) (h6 : t.table = u.table) : t = u := by
  cases t; cases u
  simp_all

/-- "RAWB" -/
def bbtSignature : UInt8 × UInt8 × UInt8 × UInt8 := (0x52, 0x41, 0x57, 0x42)

/-- The object after `memset(&bbt, 0x00, sizeof(bbt))`. -/
def BbtTable.zero : BbtTable where
  signature := (0, 0, 0, 0)
  checksum := 0
  version := 0
  size := 0
  reserved := (0, 0)
  table := List.replicate maxRawBadBlockSize 0
  table_length := List.length_replicate

/-- The entries in use, `table[0 .. header.size - 1]`. -/
def BbtTable.live (t : BbtTable) : List UInt16 := t.table.take t.size.toNat

def byte32 (x : UInt32) (k : Nat) : UInt8 := UInt8.ofNat (x.toNat / 256 ^ k)

def join32 (b0 b1 b2 b3 : UInt8) : UInt32 :=
  UInt32.ofNat (b0.toNat + 256 * b1.toNat + 256 ^ 2 * b2.toNat + 256 ^ 3 * b3.toNat)

@[simp] theorem join32_byte32 (x : UInt32) :
    join32 (byte32 x 0) (byte32 x 1) (byte32 x 2) (byte32 x 3) = x := by
  have hx : x.toNat < 4294967296 := x.toNat_lt
  apply UInt32.toNat_inj.mp
  simp only [join32, byte32, UInt32.toNat_ofNat', UInt8.toNat_ofNat']
  omega

/-- Byte `j` of `bbt.table`. -/
def BbtTable.tableByte (t : BbtTable) (j : Nat) : UInt8 :=
  if j % 2 = 0 then lo16 (t.table.getD (j / 2) 0) else hi16 (t.table.getD (j / 2) 0)

def BbtTable.headerByte (t : BbtTable) : Nat → UInt8
  | 0 => t.signature.1
  | 1 => t.signature.2.1
  | 2 => t.signature.2.2.1
  | 3 => t.signature.2.2.2
  | 4 => byte32 t.checksum 0
  | 5 => byte32 t.checksum 1
  | 6 => byte32 t.checksum 2
  | 7 => byte32 t.checksum 3
  | 8 => t.version
  | 9 => t.size
  | 10 => t.reserved.1
  | _ => t.reserved.2

/-- Byte `o` of the C object `bbt`. -/
def BbtTable.byte (t : BbtTable) (o : Nat) : UInt8 :=
  if o < 12 then t.headerByte o else t.tableByte (o - 12)

def sizeofBbt : Nat := 512

/-- The object read from the first `sizeof(bbt)` bytes of a page. -/
def BbtTable.decode (p : Nat → UInt8) : BbtTable where
  signature := (p 0, p 1, p 2, p 3)
  checksum := join32 (p 4) (p 5) (p 6) (p 7)
  version := p 8
  size := p 9
  reserved := (p 10, p 11)
  table := (List.range maxRawBadBlockSize).map fun i => join16 (p (12 + 2 * i)) (p (13 + 2 * i))
  table_length := by simp

/-- A page that starts with the bytes of `t` decodes to `t`. -/
theorem BbtTable.decode_eq {t : BbtTable} {p : Nat → UInt8}
    (h : ∀ o, o < sizeofBbt → p o = t.byte o) : BbtTable.decode p = t := by
  have hh : ∀ o, o < 12 → p o = t.headerByte o := by
    intro o ho
    rw [h o (by simp only [sizeofBbt]; omega), BbtTable.byte, if_pos ho]
  apply BbtTable.ext
  · simp [decode, hh, headerByte]
  · simp [decode, hh, headerByte]
  · simp [decode, hh, headerByte]
  · simp [decode, hh, headerByte]
  · simp [decode, hh, headerByte]
  · have hlen : t.table.length = 250 := t.table_length
    apply List.ext_getElem
    · simp [decode, hlen, maxRawBadBlockSize]
    · intro i h1 h2
      have hi : i < 250 := by omega
      have e0 : p (12 + 2 * i) = lo16 t.table[i] := by
        have hdiv : 2 * i / 2 = i := by omega
        have hoff : 12 + 2 * i - 12 = 2 * i := by omega
        rw [h _ (by simp only [sizeofBbt]; omega), BbtTable.byte, if_neg (by omega), hoff,
          BbtTable.tableByte, if_pos (by omega), hdiv, List.getD_eq_getElem _ _ h2]
      have e1 : p (13 + 2 * i) = hi16 t.table[i] := by
        have hdiv : (2 * i + 1) / 2 = i := by omega
        have hoff : 13 + 2 * i - 12 = 2 * i + 1 := by omega
        rw [h _ (by simp only [sizeofBbt]; omega), BbtTable.byte, if_neg (by omega), hoff,
          BbtTable.tableByte, if_neg (by omega), hdiv, List.getD_eq_getElem _ _ h2]
      simp [decode, e0, e1]

/-- Decoding looks only at the bytes of the object. -/
theorem BbtTable.decode_congr {p q : Nat → UInt8} (h : ∀ o, o < sizeofBbt → p o = q o) :
    BbtTable.decode p = BbtTable.decode q := by
  have hs : sizeofBbt = 512 := rfl
  apply BbtTable.ext
  · simp [decode, h, hs]
  · simp [decode, h, hs]
  · simp [decode, h, hs]
  · simp [decode, h, hs]
  · simp [decode, h, hs]
  · simp only [decode]
    apply List.map_congr_left
    intro i hi
    have hi' : i < 250 := List.mem_range.mp hi
    rw [h _ (by omega), h _ (by omega)]

/-- `bbt_checksum`. -/
@[irreducible] def BbtTable.computeChecksum (t : BbtTable) : UInt16 :=
  (List.range (maxRawBadBlockSize * 2)).foldl
    (fun checksum i => checksum + (t.tableByte i).toUInt16)
    (t.version.toUInt16 + t.size.toUInt16)

/-- The checks `parse_bbt` makes on an object read from flash. -/
def BbtTable.accepted (t : BbtTable) : Bool :=
  t.signature == bbtSignature && t.checksum == t.computeChecksum.toUInt32

end Airoha.Bmt
