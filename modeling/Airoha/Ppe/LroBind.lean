/-
Airoha.Ppe.LroBind — flows that are bound to LRO rings.

Translates `arht_general_offload_bind` of `arht_ppe.c`, which asks for a ring,
writes its number to NBQ and the port of its block to PSE_PORT, and commits the
entry. Only IPv4 HNAPT and IPv6 5-tuple entries are filled in; those of other
types are bound with the `ib2` they have. A slot is given to another flow when
its own has aged out, or when it cannot be read.

`lroRun_exclusive`: no two entries are bound to one ring, and the slot of a ring
names the entry that is bound to it, in the runs where the slots' flows are read
and no other type brings the number of a ring along.
-/
import Airoha.Ppe.LroRing
import Airoha.Ppe.EgressWords

namespace Airoha.Ppe

open Airoha.Lib

/-! ## The functions -/

/-- `PPE_UDF_LOCAL_IN` -/
def ppeUdfLocalIn : BitVec 16 := 0xA0#16

/-- `FE_PSE_PORT_CDM1` and `FE_PSE_PORT_CDM2` -/
def fePsePortCdm1 : BitVec 32 := 0#32
def fePsePortCdm2 : BitVec 32 := 5#32

/-- The entries as the engine has them, and `lro_ring_reserve`. What `ppe->foe` has of an entry is
written over by the next read. -/
structure LroWorld where
  table : BitVec 32 → FoeEntry
  rings : LroRings

/-- What a call of `arht_general_offload_bind` finds. `commitTs` is the time of the commit, none
when the entry does not get to the engine; `mac` is none for a packet without a MAC header. -/
structure OffloadArgs where
  hw : PpeHw
  foeEntryIdx : BitVec 32
  l4Hash : Bool
  swHash : Bool
  mac : Option MacArgs
  commitTs : Option (BitVec 32)

/-- `airoha_ppe_foe_get_entry_locked` -/
def foeGetEntryLocked (hw : PpeHw) (table : BitVec 32 → FoeEntry) (idx : BitVec 32) :
    Option FoeEntry :=
  if hw.Readable idx.toNat then some (table idx) else none

/-- `arht_general_offload_bind_ring` -/
def arhtGeneralOffloadBindRing (foe : BitVec 32 → Option FoeEntry) (rings : LroRings)
    (type : BitVec 16) (foeEntryIdx : BitVec 32) : Nat × LroRings :=
  if type = ppeUdfLocalIn then airohaGetFreeLroRing foe rings foeEntryIdx else (1, rings)

/-- `ib2` for a ring. -/
def lroIb2 (ring : Nat) : BitVec 32 :=
  if ring ≤ lroRingEnd then
    (0#32 ||| fieldPrep 0 5 (BitVec.ofNat 32 ring)) ||| fieldPrep 5 4 fePsePortCdm1
  else
    (0#32 ||| fieldPrep 0 5 (BitVec.ofNat 32 (ring - lroRingNum))) ||| fieldPrep 5 4 fePsePortCdm2

/-- The `switch` of `arht_general_offload_bind`. -/
def offloadFill (type : BitVec 16) (ring : Nat) (hwe : FoeEntry) : FoeEntry :=
  let data : BitVec 32 := fieldPrep 16 8 0x7F#32
  match hwe.pktType with
  | .ipv4Hnapt =>
      let hwe := hwe.put 7 (putHi16 (hwe.get 7) hwe.origSrcPort)
      let hwe := hwe.put 7 (putLo16 (hwe.get 7) hwe.origDestPort)
      let hwe := (hwe.putData data).putIb2 .ipv4 (lroIb2 ring)
      let hwe := (hwe.put 5 hwe.origSrcIp).put 6 hwe.origDestIp
      hwe.putEtype .ipv4 type
  | .ipv6Route5t => ((hwe.putData data).putIb2 .ipv6 (lroIb2 ring)).putEtype .ipv6 type
  | _ => hwe

/-- The entry as it is committed. -/
def OffloadArgs.entry (x : OffloadArgs) (type : BitVec 16) (ring : Nat) (hwe : FoeEntry) :
    FoeEntry :=
  let hwe := offloadFill type ring hwe
  match x.mac with
  | some mac => mac.set 0#16 hwe
  | none => hwe

/-- The table behind the commit. -/
def OffloadArgs.commit (x : OffloadArgs) (table : BitVec 32 → FoeEntry) (hwe : FoeEntry) :
    BitVec 32 → FoeEntry :=
  match x.commitTs with
  | some ts => Function.update table x.foeEntryIdx (stampCommit ts 0 hwe)
  | none => table

/-- `arht_general_offload_bind` -/
def arhtGeneralOffloadBind (x : OffloadArgs) (type : BitVec 16) (w : LroWorld) : LroWorld :=
  if x.hw.sramNum ≤ x.foeEntryIdx.toNat ∨ x.l4Hash = false ∨ x.swHash = true then w
  else
    match foeGetEntryLocked x.hw w.table x.foeEntryIdx with
    | none => w
    | some hwe =>
        if hwe.state = .bind then w
        else
          let (ring, rings) :=
            arhtGeneralOffloadBindRing (foeGetEntryLocked x.hw w.table) w.rings type x.foeEntryIdx
          { table := x.commit w.table (x.entry type ring hwe), rings := rings }

/-! ## What is meant -/

/-- The LRO ring that NBQ and PSE_PORT name. -/
def lroRingNamed (ib2 : BitVec 32) : Option Nat :=
  let nbq := (fieldGet 0 5 ib2).toNat
  if lroRingStart ≤ nbq ∧ nbq ≤ lroRingEnd then
    if psePort ib2 = fePsePortCdm1 then some nbq
    else if psePort ib2 = fePsePortCdm2 then some (nbq + lroRingNum)
    else none
  else none

/-- The LRO ring the `ib2` of an entry names. -/
def FoeEntry.lroRing (e : FoeEntry) : Option Nat := lroRingNamed (e.ib2 (l2Of e.pktType))

/-- The LRO ring an entry is bound to. -/
def FoeEntry.boundRing (e : FoeEntry) : Option Nat := if e.state = .bind then e.lroRing else none

/-- No two entries are bound to one ring, and each is the one the slot of its ring records. -/
structure LroExclusive (w : LroWorld) : Prop where
  distinct : ∀ i j ring, (w.table i).boundRing = some ring → (w.table j).boundRing = some ring →
    i = j
  recorded : ∀ i ring, (w.table i).boundRing = some ring →
    lroHolder w.rings (ring - lroRingStart) = some i

/-- A packet is bound, or the engine writes an entry: it ages out, is unbound, or stands for another
flow, and is not bound to an LRO ring. -/
inductive LroOp where
  | bind (x : OffloadArgs)
  | engine (idx : BitVec 32) (e : { e : FoeEntry // e.boundRing = none })

def LroWorld.step (w : LroWorld) : LroOp → LroWorld
  | .bind x => arhtGeneralOffloadBind x ppeUdfLocalIn w
  | .engine idx e => { w with table := Function.update w.table idx e.val }

/-- In every state of a run. -/
def LroRunExclusive (w : LroWorld) : List LroOp → Prop
  | [] => LroExclusive w
  | op :: ops => LroExclusive w ∧ LroRunExclusive (w.step op) ops

/-- `arht_general_offload_bind` fills in the entries of this type. -/
def LroFilled (type : PktType) : Prop := type = .ipv4Hnapt ∨ type = .ipv6Route5t

instance (type : PktType) : Decidable (LroFilled type) :=
  inferInstanceAs (Decidable (_ ∨ _))

/-- The packet gets as far as a ring. -/
def OffloadArgs.Asks (x : OffloadArgs) (w : LroWorld) : Prop :=
  x.foeEntryIdx.toNat < x.hw.sramNum ∧ x.l4Hash = true ∧ x.swHash = false ∧
    x.hw.Readable x.foeEntryIdx.toNat ∧ (w.table x.foeEntryIdx).state ≠ .bind

/-- The slots the call looks at are read while the flow they record is bound to their ring, and an
entry that gets bound but is not filled in does not name a ring. -/
structure OffloadKeeps (x : OffloadArgs) (w : LroWorld) : Prop where
  read : ∀ i < 8,
    (∀ j < i, ¬ LroAged (foeGetEntryLocked x.hw w.table) w.rings j ∧
      lroHolder w.rings j ≠ some x.foeEntryIdx) →
    ∀ flow, lroHolder w.rings i = some flow → (w.table flow).boundRing = some (lroRingStart + i) →
    x.hw.Readable flow.toNat
  filled : (w.table x.foeEntryIdx).state = .unbind → x.commitTs ≠ none →
    ¬ LroFilled (w.table x.foeEntryIdx).pktType → (w.table x.foeEntryIdx).lroRing = none

/-- Every packet of the run that asks for a ring, in the state it finds. -/
def OffloadsKeep (w : LroWorld) : List LroOp → Prop
  | [] => True
  | .bind x :: ops => (x.Asks w → OffloadKeeps x w) ∧ OffloadsKeep (w.step (.bind x)) ops
  | .engine idx e :: ops => OffloadsKeep (w.step (.engine idx e)) ops

/-! ## What is written to the entry -/

section Entry

variable {e : FoeEntry} {type : BitVec 16} {ring : Nat} {k : Fin 20}

theorem pktType_of_get {e e' : FoeEntry} (h : e'.get 0 = e.get 0) : e'.pktType = e.pktType := by
  have hib1 : e'.ib1 = e.ib1 := h
  rw [FoeEntry.pktType, FoeEntry.pktType, hib1]

theorem state_of_get {e e' : FoeEntry} (h : e'.get 0 = e.get 0) : e'.state = e.state := by
  have hib1 : e'.ib1 = e.ib1 := h
  rw [FoeEntry.state, FoeEntry.state, hib1]

theorem get_offloadFill_zero : (offloadFill type ring e).get 0 = e.get 0 := by
  unfold offloadFill
  cases e.pktType <;>
    simp [FoeEntry.putData, FoeEntry.putIb2, FoeEntry.putEtype, FoeEntry.get_put, L2.ib2, L2.at]

/-- Only the types that are filled in get the ring. -/
theorem ib2_offloadFill : (offloadFill type ring e).ib2 (l2Of e.pktType) =
    if LroFilled e.pktType then lroIb2 ring else e.ib2 (l2Of e.pktType) := by
  unfold offloadFill
  cases ht : e.pktType <;>
    simp [LroFilled, l2Of, PktType.code, FoeEntry.ib2, FoeEntry.putData, FoeEntry.putIb2,
      FoeEntry.putEtype, FoeEntry.get_put, L2.ib2, L2.at]

theorem get_entry (x : OffloadArgs) (hk : k.val < 12) :
    (x.entry type ring e).get k = (offloadFill type ring e).get k := by
  unfold OffloadArgs.entry
  cases x.mac with
  | none => rfl
  | some mac => exact get_macSet mac 0#16 _ hk

theorem l2Of_ib2_ne (t : PktType) : (l2Of t).ib2 ≠ 0 ∧ (l2Of t).ib2.val < 12 := by
  cases t <;> decide

theorem pktType_commit (x : OffloadArgs) (ts : BitVec 32) :
    (stampCommit ts 0 (x.entry type ring e)).pktType = e.pktType := by
  have hzero : (x.entry type ring e).get 0 = e.get 0 :=
    (get_entry x (by decide)).trans get_offloadFill_zero
  have hstamp := pktType_of_field
    (field_stampCommit ts 0 (x.entry type ring e) (s := 25) (n := 3) (by decide) (by decide))
  exact hstamp.trans (pktType_of_get hzero)

/-- The ring the committed entry names. -/
theorem lroRing_commit (x : OffloadArgs) (ts : BitVec 32) :
    (stampCommit ts 0 (x.entry type ring e)).lroRing =
      if LroFilled e.pktType then lroRingNamed (lroIb2 ring) else e.lroRing := by
  obtain ⟨hne, hlt⟩ := l2Of_ib2_ne e.pktType
  have hib2 : (stampCommit ts 0 (x.entry type ring e)).ib2 (l2Of e.pktType) =
      (offloadFill type ring e).ib2 (l2Of e.pktType) :=
    (get_stampCommit hne).trans (get_entry x hlt)
  rw [FoeEntry.lroRing, pktType_commit, hib2, ib2_offloadFill]
  split_ifs <;> rfl

/-- A commit binds unbound entries only. -/
theorem unbind_of_commit_bind {ts : BitVec 32} (h : (stampCommit ts 0 e).state = .bind)
    (hne : e.state ≠ .bind) : e.state = .unbind := by
  by_contra hun
  rw [state_stampCommit ts 0 hun] at h
  exact hne h

end Entry

/-! ## Rings and slots -/

/-- The ring an `ib2` is written for is the one it names. -/
theorem lroRingNamed_lroIb2 : ∀ i < 8,
    lroRingNamed (lroIb2 (lroRingStart + i)) = some (lroRingStart + i) := by
  decide

theorem lroRingNamed_one : lroRingNamed (lroIb2 1) = none := by
  decide

theorem lroRingNamed_bound {ib2 : BitVec 32} {ring : Nat} (h : lroRingNamed ib2 = some ring) :
    ring - lroRingStart < 8 ∧ lroRingStart + (ring - lroRingStart) = ring := by
  have hnum : lroRingStart = 12 ∧ lroRingEnd = 15 ∧ lroRingNum = 4 := ⟨rfl, rfl, rfl⟩
  simp only [lroRingNamed] at h
  generalize (fieldGet 0 5 ib2).toNat = nbq at h
  by_cases hnbq : lroRingStart ≤ nbq ∧ nbq ≤ lroRingEnd
  · rw [if_pos hnbq] at h
    split_ifs at h
    · have hring := Option.some.inj h
      omega
    · have hring := Option.some.inj h
      omega
  · rw [if_neg hnbq] at h
    cases h

/-- NBQ of the entries that name a ring, as `ppe_entry_is_valid` expects it. -/
theorem nbq_of_named {ib2 : BitVec 32} {ring : Nat} (h : lroRingNamed ib2 = some ring) :
    (fieldGet 0 5 ib2).toNat = if ring ≤ lroRingEnd then ring else ring - lroRingNum := by
  have hnum : lroRingStart = 12 ∧ lroRingEnd = 15 ∧ lroRingNum = 4 := ⟨rfl, rfl, rfl⟩
  simp only [lroRingNamed] at h
  generalize (fieldGet 0 5 ib2).toNat = nbq at h
  by_cases hnbq : lroRingStart ≤ nbq ∧ nbq ≤ lroRingEnd
  · rw [if_pos hnbq] at h
    split_ifs at h
    · have hring := Option.some.inj h
      rw [if_pos (by omega)]
      omega
    · have hring := Option.some.inj h
      rw [if_neg (by omega)]
      omega
  · rw [if_neg hnbq] at h
    cases h

section Slots

variable {foe : BitVec 32 → Option FoeEntry} {rings : LroRings} {idx : BitVec 32}

/-- A flow keeps its slot unless the call finds it aged out. -/
theorem lroHolder_kept {i : Nat} {flow : BitVec 32} (h : lroHolder rings i = some flow)
    (hvalid : (∀ j < i, ¬ LroAged foe rings j ∧ lroHolder rings j ≠ some idx) →
      ¬ LroAged foe rings i) :
    lroHolder (airohaGetFreeLroRing foe rings idx).2 i = some flow := by
  have hres : (rings i).state = .reserved := (lroHolder_eq_some.mp h).1
  unfold airohaGetFreeLroRing
  rw [lroCheckBinded_eq]
  cases hscan : scanUp (fun j => decide (LroAged foe rings j ∨ lroHolder rings j = some idx)) 0
      (2 * lroRingNum) with
  | some m =>
    obtain ⟨-, -, -, hbefore⟩ := scanUp_eq_some_iff.mp hscan
    simp only [Option.map_some]
    split_ifs with haged
    · have hne : i ≠ m := by
        intro him
        subst him
        refine hvalid ?_ haged
        intro j hj
        simpa using hbefore j (Nat.zero_le j) hj
      have hupd : lroHolder (Function.update rings m { rings m with idx := idx }) =
          Function.update (lroHolder rings) m (some idx) := lroHolder_update rings m haged.1
      rw [hupd, Function.update_of_ne hne]
      exact h
    · exact h
  | none =>
    simp only [Option.map_none]
    rw [lroScanFree_eq]
    cases hfree : scanUp (fun j => decide ((rings j).state = .free)) 0 (2 * lroRingNum) with
    | some m =>
      obtain ⟨-, -, hm, -⟩ := scanUp_eq_some_iff.mp hfree
      have hne : i ≠ m := by
        intro him
        subst him
        simp [hres] at hm
      simp only [Option.map_some, Option.getD_some]
      rw [lroHolder_update rings m rfl, Function.update_of_ne hne]
      exact h
    | none => exact h

/-- The slot of the ring a flow is given records it; ring 1 has none. -/
theorem lroHolder_given (foe : BitVec 32 → Option FoeEntry) (rings : LroRings) (idx : BitVec 32) :
    (airohaGetFreeLroRing foe rings idx).1 = 1 ∨
      ∃ i < 8, (airohaGetFreeLroRing foe rings idx).1 = lroRingStart + i ∧
        lroHolder (airohaGetFreeLroRing foe rings idx).2 i = some idx := by
  have hout := getFreeLroRing_outcome foe rings idx
  generalize airohaGetFreeLroRing foe rings idx = r at hout
  cases hout with
  | recycled i hi haged _ =>
    have hupd : lroHolder (Function.update rings i { rings i with idx := idx }) =
        Function.update (lroHolder rings) i (some idx) := lroHolder_update rings i haged.1
    refine Or.inr ⟨i, hi, rfl, ?_⟩
    simp only
    rw [hupd, Function.update_self]
  | own i hi hown _ => exact Or.inr ⟨i, hi, rfl, hown⟩
  | fresh i hi _ =>
    have hupd : lroHolder (Function.update rings i { state := .reserved, idx := idx }) =
        Function.update (lroHolder rings) i (some idx) := lroHolder_update rings i rfl
    refine Or.inr ⟨i, hi, rfl, ?_⟩
    simp only
    rw [hupd, Function.update_self]
  | full _ => exact Or.inl rfl

end Slots

/-! ## The invariant -/

/-- A bound entry is recorded, and of a type that is filled in. -/
structure LroInv (w : LroWorld) : Prop where
  recorded : ∀ i ring, (w.table i).boundRing = some ring →
    lroHolder w.rings (ring - lroRingStart) = some i
  filled : ∀ i ring, (w.table i).boundRing = some ring → LroFilled (w.table i).pktType

section Invariant

variable {w : LroWorld}

/-- The slot of a ring records one entry. -/
theorem LroInv.exclusive (h : LroInv w) : LroExclusive w := by
  refine ⟨?_, h.recorded⟩
  intro i j ring hi hj
  have hslot := h.recorded i ring hi
  rw [h.recorded j ring hj] at hslot
  exact (Option.some.inj hslot).symm

theorem boundRing_eq_some {e : FoeEntry} {ring : Nat} :
    e.boundRing = some ring ↔ e.state = .bind ∧ e.lroRing = some ring := by
  unfold FoeEntry.boundRing
  by_cases h : e.state = .bind <;> simp [h]

/-- A flow that is bound to a ring and can be read is valid. -/
theorem LroInv.valid (h : LroInv w) {hw : PpeHw} {flow : BitVec 32} {ring : Nat}
    (hbound : (w.table flow).boundRing = some ring) (hread : hw.Readable flow.toNat) :
    ppeEntryIsValid (foeGetEntryLocked hw w.table) flow ring = 0 := by
  obtain ⟨hstate, hring⟩ := boundRing_eq_some.mp hbound
  have hnbq := nbq_of_named hring
  unfold ppeEntryIsValid foeGetEntryLocked
  rw [if_pos hread]
  rcases h.filled flow ring hbound with ht | ht
  · simp only [ht, hstate]
    simp only [ht, l2Of, PktType.code] at hnbq
    simpa using hnbq
  · simp only [ht, hstate]
    simp only [ht, l2Of, PktType.code] at hnbq
    simpa using hnbq

/-- A bound flow keeps its slot. -/
theorem LroInv.kept (h : LroInv w) {x : OffloadArgs} (hk : OffloadKeeps x w) {flow : BitVec 32}
    {ring : Nat} (hbound : (w.table flow).boundRing = some ring) :
    lroHolder (airohaGetFreeLroRing (foeGetEntryLocked x.hw w.table) w.rings x.foeEntryIdx).2
      (ring - lroRingStart) = some flow := by
  obtain ⟨hlt, hring⟩ := lroRingNamed_bound (boundRing_eq_some.mp hbound).2
  have hslot := h.recorded flow ring hbound
  refine lroHolder_kept hslot ?_
  intro hreached haged
  have hread := hk.read _ hlt hreached flow hslot (by rw [hring]; exact hbound)
  have hidx := (lroHolder_eq_some.mp hslot).2
  refine haged.2 ?_
  rw [hidx, hring]
  exact h.valid hbound hread

/-- A call that gets as far as a ring, or does nothing. -/
theorem offloadBind_cases (x : OffloadArgs) (type : BitVec 16) (w : LroWorld) :
    arhtGeneralOffloadBind x type w = w ∨ x.Asks w ∧
      arhtGeneralOffloadBind x type w =
        let r :=
          arhtGeneralOffloadBindRing (foeGetEntryLocked x.hw w.table) w.rings type x.foeEntryIdx
        { table := x.commit w.table (x.entry type r.1 (w.table x.foeEntryIdx)), rings := r.2 } := by
  unfold arhtGeneralOffloadBind
  by_cases hguard : x.hw.sramNum ≤ x.foeEntryIdx.toNat ∨ x.l4Hash = false ∨ x.swHash = true
  · simp [hguard]
  · rw [if_neg hguard]
    by_cases hread : x.hw.Readable x.foeEntryIdx.toNat
    · have hfoe : foeGetEntryLocked x.hw w.table x.foeEntryIdx = some (w.table x.foeEntryIdx) := by
        simp [foeGetEntryLocked, hread]
      by_cases hbind : (w.table x.foeEntryIdx).state = .bind
      · simp [hfoe, hbind]
      · refine Or.inr ⟨?_, by simp [hfoe, hbind]⟩
        simp only [not_or, Nat.not_le, Bool.not_eq_false, Bool.not_eq_true] at hguard
        exact ⟨hguard.1, hguard.2.1, hguard.2.2, hread, hbind⟩
    · simp [foeGetEntryLocked, hread]

/-- What the entry of the call is bound to behind the commit. -/
theorem bound_commit {x : OffloadArgs} (hasks : x.Asks w) (hk : OffloadKeeps x w) {ts : BitVec 32}
    (hts : x.commitTs = some ts) {type : BitVec 16} {given ring : Nat}
    (h : (stampCommit ts 0 (x.entry type given (w.table x.foeEntryIdx))).boundRing = some ring) :
    LroFilled (w.table x.foeEntryIdx).pktType ∧ lroRingNamed (lroIb2 given) = some ring := by
  obtain ⟨hstate, hring⟩ := boundRing_eq_some.mp h
  have hentry : (x.entry type given (w.table x.foeEntryIdx)).state =
      (w.table x.foeEntryIdx).state :=
    state_of_get ((get_entry x (by decide)).trans get_offloadFill_zero)
  have hunbind := unbind_of_commit_bind hstate (by rw [hentry]; exact hasks.2.2.2.2)
  rw [hentry] at hunbind
  rw [lroRing_commit] at hring
  by_cases hf : LroFilled (w.table x.foeEntryIdx).pktType
  · rw [if_pos hf] at hring
    exact ⟨hf, hring⟩
  · rw [if_neg hf, hk.filled hunbind (by simp [hts]) hf] at hring
    cases hring

/-- Binding a packet. -/
theorem LroInv.bind (h : LroInv w) {x : OffloadArgs} (hk : x.Asks w → OffloadKeeps x w) :
    LroInv (arhtGeneralOffloadBind x ppeUdfLocalIn w) := by
  rcases offloadBind_cases x ppeUdfLocalIn w with hw | ⟨hasks, hw⟩
  · rw [hw]
    exact h
  · have hkeeps := hk hasks
    rw [hw]
    simp only [arhtGeneralOffloadBindRing, if_true]
    cases hts : x.commitTs with
    | none =>
      simp only [OffloadArgs.commit, hts]
      exact ⟨fun i ring hi => h.kept hkeeps hi, h.filled⟩
    | some ts =>
      simp only [OffloadArgs.commit, hts]
      constructor
      · intro i ring hi
        simp only at hi ⊢
        by_cases hidx : i = x.foeEntryIdx
        · subst hidx
          rw [Function.update_self] at hi
          obtain ⟨-, hnamed⟩ := bound_commit hasks hkeeps hts hi
          -- the ring that is written is the one that was given, and its slot records the entry
          rcases lroHolder_given (foeGetEntryLocked x.hw w.table) w.rings x.foeEntryIdx with
            hone | ⟨k, hk8, hring, hslot⟩
          · rw [hone, lroRingNamed_one] at hnamed
            cases hnamed
          · rw [hring, lroRingNamed_lroIb2 k hk8] at hnamed
            rw [← Option.some.inj hnamed, Nat.add_sub_cancel_left]
            exact hslot
        · rw [Function.update_of_ne hidx] at hi
          exact h.kept hkeeps hi
      · intro i ring hi
        simp only at hi ⊢
        by_cases hidx : i = x.foeEntryIdx
        · subst hidx
          rw [Function.update_self] at hi ⊢
          rw [pktType_commit]
          exact (bound_commit hasks hkeeps hts hi).1
        · rw [Function.update_of_ne hidx] at hi ⊢
          exact h.filled i ring hi

/-- What the engine writes is bound to no ring. -/
theorem LroInv.engine (h : LroInv w) (idx : BitVec 32)
    (e : { e : FoeEntry // e.boundRing = none }) : LroInv (w.step (.engine idx e)) := by
  have hold : ∀ i ring, ((w.step (.engine idx e)).table i).boundRing = some ring →
      i ≠ idx ∧ (w.table i).boundRing = some ring := by
    intro i ring hi
    simp only [LroWorld.step] at hi
    by_cases hidx : i = idx
    · subst hidx
      rw [Function.update_self, e.property] at hi
      cases hi
    · rw [Function.update_of_ne hidx] at hi
      exact ⟨hidx, hi⟩
  constructor
  · intro i ring hi
    exact h.recorded i ring (hold i ring hi).2
  · intro i ring hi
    obtain ⟨hidx, hi'⟩ := hold i ring hi
    simp only [LroWorld.step]
    rw [Function.update_of_ne hidx]
    exact h.filled i ring hi'

/-! ## Whole runs -/

/-- By induction over the operations. -/
theorem LroInv.run {ops : List LroOp} (h : LroInv w) (hk : OffloadsKeep w ops) :
    LroRunExclusive w ops := by
  induction ops generalizing w with
  | nil => exact h.exclusive
  | cons op ops ih =>
    refine ⟨h.exclusive, ?_⟩
    cases op with
    | bind x => exact ih (h.bind hk.1) hk.2
    | engine idx e => exact ih (h.engine idx e) hk

/-- No two entries are bound to one LRO ring, and the slot of a ring records the entry that is bound
to it, in every run from a table without such entries in which the slots' flows can be read and no
entry is bound with a ring of its own. -/
theorem lroRun_exclusive (table : BitVec 32 → FoeEntry) (hnone : ∀ i, (table i).boundRing = none)
    (ops : List LroOp) (hk : OffloadsKeep { table := table, rings := lroInit } ops) :
    LroRunExclusive { table := table, rings := lroInit } ops := by
  refine LroInv.run ⟨?_, ?_⟩ hk
  · intro i ring hi
    rw [hnone i] at hi
    cases hi
  · intro i ring hi
    rw [hnone i] at hi
    cases hi

end Invariant

/-- An entry of a type, with a state and an `ib2` at word 4. -/
def ipv4Entry (type : PktType) (state : BitVec 32) (ib2 : BitVec 32) : FoeEntry :=
  (FoeEntry.put (Vector.replicate 20 0#32) 0
    (fieldPrep 28 2 state ||| fieldPrep 25 3 (BitVec.ofNat 32 type.code))).put 4 ib2

/-- A packet of the flow at an index; no read is lost. -/
def localIn (idx : BitVec 32) : OffloadArgs where
  hw :=
    { sramNum := 16384
      numEntries := 32768
      acks := fun _ => true
      writeAcks := fun _ => true
      npu := true }
  foeEntryIdx := idx
  l4Hash := true
  swHash := false
  mac := none
  commitTs := some 0#32

/-- No entry is in use. -/
def noEntries : BitVec 32 → FoeEntry := fun _ => Vector.replicate 20 0#32

theorem noEntries_unbound (i : BitVec 32) : (noEntries i).boundRing = none := by
  have hzero : FoeEntry.boundRing (Vector.replicate 20 0#32) = none := by decide
  exact hzero

/-- A flow at index 9 gets ring 12. -/
def ringTaken : List LroOp :=
  [.engine 9#32 ⟨ipv4Entry .ipv4Hnapt 1#32 0#32, by decide⟩, .bind (localIn 9#32)]

/-- Every read of `localIn` comes through, so its own type is all that matters. -/
theorem offloadKeeps_localIn {w : LroWorld} {idx : BitVec 32}
    (hfilled : LroFilled (w.table idx).pktType) : OffloadKeeps (localIn idx) w :=
  ⟨fun _ _ _ _ _ _ _ => rfl, fun _ _ hnot => absurd hfilled hnot⟩

/-- An IPv6 flow at index 5 gets ring 13, then the flow at index 9 ages out and one at index 7 gets
ring 12. -/
def ringPassedOn : List LroOp :=
  ringTaken ++ [.engine 5#32 ⟨ipv4Entry .ipv6Route5t 1#32 0#32, by decide⟩, .bind (localIn 5#32),
    .engine 9#32 ⟨ipv4Entry .ipv4Hnapt 0#32 12#32, by decide⟩,
    .engine 7#32 ⟨ipv4Entry .ipv4Hnapt 1#32 0#32, by decide⟩, .bind (localIn 7#32)]

/-- Each of the two rings has one flow all along, and at the end those of 5 and 7. -/
theorem lroRun_ringPassedOn :
    LroRunExclusive { table := noEntries, rings := lroInit } ringPassedOn ∧
      let w := ringPassedOn.foldl LroWorld.step { table := noEntries, rings := lroInit }
      (w.table 5#32).boundRing = some 13 ∧ (w.table 7#32).boundRing = some 12 ∧
        (w.table 9#32).boundRing = none ∧ lroHolder w.rings 0 = some 7#32 := by
  refine ⟨lroRun_exclusive noEntries noEntries_unbound ringPassedOn ?_, by decide⟩
  exact ⟨fun _ => offloadKeeps_localIn (by decide), fun _ => offloadKeeps_localIn (by decide),
    fun _ => offloadKeeps_localIn (by decide), trivial⟩

/-- The flow of `ringTaken` ages out, a flow at index 5 gets the ring, and index 9 stands for an
IPv4 route now, which is bound with the ring that was left in its entry. -/
def ringReused : List LroOp :=
  ringTaken ++ [.engine 9#32 ⟨ipv4Entry .ipv4Hnapt 0#32 12#32, by decide⟩,
    .engine 5#32 ⟨ipv4Entry .ipv4Hnapt 1#32 0#32, by decide⟩, .bind (localIn 5#32),
    .engine 9#32 ⟨ipv4Entry .ipv4Route 1#32 12#32, by decide⟩, .bind (localIn 9#32)]

theorem not_lroRun_ringReused :
    (∀ i, (noEntries i).boundRing = none) ∧
      ¬ LroRunExclusive { table := noEntries, rings := lroInit } ringReused := by
  refine ⟨noEntries_unbound, ?_⟩
  intro hrun
  have hlast := hrun.2.2.2.2.2.2.2.distinct 5#32 9#32 12 (by decide) (by decide)
  revert hlast
  decide

end Airoha.Ppe
