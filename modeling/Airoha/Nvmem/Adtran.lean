/-
Airoha.Nvmem.Adtran — the parser of the manufacturing information.

Translates `adtran_add_cells`. The text is searched with `strchr`, names are
rewritten and ended by a NUL in place. A `char` is unsigned, as the kernel is
built. What is meant is said of the text as it was read: each line NAME=VALUE is
a cell.
-/
import Airoha.Lib.Scan
import Airoha.Lib.Window

namespace Airoha.Nvmem

open Airoha.Lib

/-! ## Strings -/

/-- `sizeof(mfginfo)` -/
def size : Nat := 1024

/-- `tolower`, by the table of the kernel: ASCII and Latin-1. -/
def tolower (c : BitVec 8) : BitVec 8 :=
  if (0x41#8 ≤ c ∧ c ≤ 0x5a#8) ∨ (0xc0#8 ≤ c ∧ c ≤ 0xde#8 ∧ c ≠ 0xd7#8) then c + 0x20#8 else c

/-- A character of a name: lower case, and '-' for '_'. -/
def nameChar (c : BitVec 8) : BitVec 8 := if tolower c = 0x5f#8 then 0x2d#8 else tolower c

/-- `strchr`, some none for NULL; none is an access at the end of the buffer. -/
def strchr (m : Mem) (s : Nat) (ch : BitVec 8) : Option (Option Nat) :=
  match scanUp (fun i => m i == ch || m i == 0#8) s (size - s) with
  | none => none
  | some i => some (if m i = ch then some i else none)

/-- The loop over the name, from `p`. It is left at a NUL behind the first character. -/
def lowerName : Nat → Nat → Mem → Option Mem
  | 0, _, _ => none
  | k + 1, p, m =>
      let m := Function.update m p (nameChar (m p))
      if size ≤ p + 1 then none
      else if m (p + 1) = 0#8 then some m
      else lowerName k (p + 1) m

/-- The string at `s`. -/
def cstr (m : Mem) (s : Nat) : List (BitVec 8) :=
  ((List.range (size - s)).map fun k => m (s + k)).takeWhile fun c => c != 0#8

/-! ## Cells -/

/-- `struct nvmem_cell_info`, of what is set. `mac` is `read_post_process`. -/
structure NvmemCellInfo where
  name : List (BitVec 8)
  offset : Nat
  bytes : Nat
  rawLen : Nat
  mac : Bool

/-- "mfg-mac" -/
def mfgMac : List (BitVec 8) := [0x6d#8, 0x66#8, 0x67#8, 0x2d#8, 0x6d#8, 0x61#8, 0x63#8]

/-- `info`, of a name at `c`, and a value from `t` to a newline at `j`. -/
def cellInfo (m : Mem) (c t j : Nat) : NvmemCellInfo :=
  let name := cstr m c
  let bytes := j - t
  if name = mfgMac then { name := name, offset := t, bytes := 6, rawLen := bytes, mac := true }
  else { name := name, offset := t, bytes := bytes, rawLen := 0, mac := false }

/-! ## The parser -/

/-- How the parser ends: with an access out of the buffer, not within so many lines, or with the
cells it passed to `nvmem_add_one_cell` and what it returns. -/
inductive Outcome where
  | outOfBounds
  | unfinished
  | done (cells : List NvmemCellInfo) (ret : Int)

/-- The loop of `adtran_add_cells`. `add` is what `nvmem_add_one_cell` returns, by the number of the
cell. -/
def addCells (add : Nat → Int) : Nat → Nat → Mem → List NvmemCellInfo → Int → Outcome
  | 0, _, _, _, _ => .unfinished
  | fuel + 1, c, m, cells, ret =>
      if size ≤ c then .outOfBounds
      else if m c = 0xff#8 then .done cells ret
      else
        let nextline :=
          match strchr m c 0x0a#8 with
          | none => .outOfBounds
          | some none => .done cells ret
          | some (some j) => addCells add fuel (j + 1) m cells ret
        if m c = 0x23#8 then nextline
        else
          match strchr m c 0x3d#8 with
          | none => .outOfBounds
          | some none => nextline
          | some (some e) =>
              match lowerName (size - c) c (Function.update m e 0#8) with
              | none => .outOfBounds
              | some m =>
                  match strchr m (e + 1) 0x0a#8 with
                  | none => .outOfBounds
                  | some none => .done cells ret
                  | some (some j) =>
                      let ret := add cells.length
                      let cells := cells ++ [cellInfo m c (e + 1) j]
                      if ret ≠ 0 then .done cells ret else addCells add fuel (j + 1) m cells ret

/-- `adtran_add_cells`, of a buffer that was read: `nvmem_device_read` has returned its size. -/
def adtranAddCells (add : Nat → Int) (m : Mem) : Outcome := addCells add (size + 1) 0 m [] size

/-! ## What is meant -/

/-- A cell as the nvmem core takes it: without a raw length it is that of the value. -/
structure Cell where
  name : List (BitVec 8)
  offset : Nat
  len : Nat
deriving DecidableEq

def NvmemCellInfo.cell (i : NvmemCellInfo) : Cell where
  name := i.name
  offset := i.offset
  len := if i.rawLen = 0 then i.bytes else i.rawLen

/-- The newline that ends the line at `c`. -/
def newline (m : Mem) (c : Nat) : Option Nat := scanUp (fun i => m i == 0x0a#8) c (size - c)

/-- The characters of a name from `c` to `e`. -/
def nameOf (m : Mem) (c e : Nat) : List (BitVec 8) :=
  (List.range (e - c)).map fun k => nameChar (m (c + k))

/-- The cell of the line from `c` to the newline at `j`: none for a comment, or without a '='. -/
def lineCell (m : Mem) (c j : Nat) : Option Cell :=
  if m c = 0x23#8 then none
  else
    (scanUp (fun i => m i == 0x3d#8) c (j - c)).map fun e =>
      { name := nameOf m c e, offset := e + 1, len := j - (e + 1) }

/-- The cells of the lines from `c` on, up to a line that begins with 0xff. -/
def expected (m : Mem) (c : Nat) : List Cell :=
  if c < size ∧ m c ≠ 0xff#8 then
    match _h : newline m c with
    | none => []
    | some j => (lineCell m c j).toList ++ expected m (j + 1)
  else []
termination_by size - c
decreasing_by
  have hj := scanUp_eq_some_iff.mp _h
  omega

/-- The cells that are passed on, up to the first that is refused. -/
def attempted (add : Nat → Int) : Nat → List Cell → List Cell
  | _, [] => []
  | k, x :: xs => x :: if add k = 0 then attempted add (k + 1) xs else []

/-- Whatever `nvmem_add_one_cell` returns: no access out of the buffer, an end, the cells of the
text, and 0 if none was refused. -/
def ParserRight (m : Mem) : Prop :=
  ∀ add, ∃ cells ret, adtranAddCells add m = .done cells ret ∧
    cells.map NvmemCellInfo.cell = attempted add 0 (expected m 0) ∧
    ((∀ k < cells.length, add k = 0) → ret = 0)

/-! ## What the text needs -/

/-- A line the parser reads as it is meant: ended by a newline, without a NUL, and a comment or with
a '='. With an empty name a NUL has to follow somewhere, and the value of MFG_MAC is not empty. -/
structure RegularLine (m : Mem) (c j : Nat) : Prop where
  start : m c ≠ 0xff#8
  ended : newline m c = some j
  noNul : ∀ i, c ≤ i → i < j → m i ≠ 0#8
  whole : m c = 0x23#8 ∨ ∃ e, c ≤ e ∧ e < j ∧ m e = 0x3d#8
  emptyName : m c = 0x3d#8 → ∃ n, j < n ∧ n < size ∧ m n = 0#8
  mfgMac : ∀ x, lineCell m c j = some x → x.name = mfgMac → 0 < x.len

/-- Regular lines from one place to another. -/
inductive RegularTo (m : Mem) : Nat → Nat → Prop where
  | here (c : Nat) : RegularTo m c c
  | line {c j c' : Nat} (h : RegularLine m c j) (hrest : RegularTo m (j + 1) c') : RegularTo m c c'

/-- Where the text may end: at a line that begins with 0xff, or where a NUL follows, no cell is
meant any more, and no newline stands between a '=' and the NUL. -/
def EndsAt (m : Mem) (c : Nat) : Prop :=
  c < size ∧ (m c = 0xff#8 ∨ ∃ n, c ≤ n ∧ n < size ∧ m n = 0#8 ∧ expected m c = [] ∧
    ∀ e j, c ≤ e → e < j → j < n → ¬ (m e = 0x3d#8 ∧ m j = 0x0a#8))

/-- There is a cell at all, and the lines are regular up to such an end. -/
def WellFormed (m : Mem) : Prop := expected m 0 ≠ [] ∧ ∃ c, RegularTo m 0 c ∧ EndsAt m c

end Airoha.Nvmem
