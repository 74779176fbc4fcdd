/-
Airoha.Eip93.Complete — requests and their completion.

Translates what `eip93_handle_result_descriptor` does behind its loop and
`eip93_parse_ctrl_stat_err`, with the `idr_alloc` of `eip93_send_req` and of
`eip93_send_hash_req`. A request is a number; it gets an id, and the one
descriptor of it that is marked `EIP93_DESC_LAST` carries the id. The other
descriptors, of any request, are put in between. The result of `idr_alloc` is
not tested: `failed` counts the requests that got none.

What the handlers do with a result is left out: a completion records which of
them are called, what `idr_find` gives them, and the error.
-/
import Airoha.Lib.Ids
import Airoha.Eip93.RingDrain
import Mathlib.Data.List.Forall2

namespace Airoha.Eip93

open Airoha.Lib

/-! ## Errors -/

/-- `EIP93_PE_CTRL_PE_EXT_ERR_CODE` -/
def peExtErrCode : BitVec 32 := 0xf00000

/-- `EIP93_PE_CTRL_PE_EXT_ERR` -/
def peExtErr : BitVec 32 := 0x80000

/-- `EIP93_PE_CTRL_PE_SEQNUM_ERR` -/
def peSeqnumErr : BitVec 32 := 0x40000

/-- `EIP93_PE_CTRL_PE_PAD_ERR` -/
def pePadErr : BitVec 32 := 0x20000

/-- `EIP93_PE_CTRL_PE_AUTH_ERR` -/
def peAuthErr : BitVec 32 := 0x10000

/-- The switch over `EIP93_PE_CTRL_PE_EXT_ERR_CODE`. -/
def extErrno (ext : BitVec 4) : Int :=
  if ext = 0x0 ∨ ext = 0x8 then -5
  else if ext = 0x1 then -13
  else if ext = 0x2 ∨ ext = 0x3 ∨ ext = 0x4 then -22
  else if ext = 0x5 ∨ ext = 0x6 ∨ ext = 0x7 then -74
  else -22

/-- `eip93_parse_ctrl_stat_err` -/
def eip93ParseCtrlStatErr (err : BitVec 32) : Int :=
  if err = 0 then 0
  else if err &&& ~~~peExtErrCode = peAuthErr ∨ err &&& ~~~peExtErrCode = pePadErr then -74
  else if err &&& ~~~peExtErrCode = peSeqnumErr then 0
  else if err &&& ~~~peExtErrCode = peExtErr then extErrno (err.extractLsb' 20 4)
  else -22

/-- The error bits of a result, as the handler takes them from `pe_ctrl_stat_word`. -/
def Descriptor.err (d : Descriptor) : BitVec 32 :=
  d.peCtrlStatWord &&& (peExtErrCode ||| peExtErr ||| peSeqnumErr ||| pePadErr ||| peAuthErr)

/-! ## Requests -/

/-- Who takes a result over. -/
inductive Handler where
  | skcipher
  | aead
  | hash
  deriving DecidableEq

/-- The tests of `desc_flags` behind the loop. -/
def Descriptor.handlers (d : Descriptor) : List Handler :=
  (if d.descFlags.getLsbD 8 then [.skcipher] else []) ++
    (if d.descFlags.getLsbD 7 then [.aead] else []) ++
    (if d.descFlags.getLsbD 6 then [.hash] else [])

/-- A completion: the handlers called, and what with. -/
structure Done where
  handlers : List Handler
  async : Option Nat
  err : Int
  deriving DecidableEq

/-- The engine with its driver: the rings, `crypto_async_idr`, the ids the requests got, the
requests whose last descriptor has been handed over, and the completions. -/
structure Dev where
  ring : Sys
  idr : Ids Nat
  ids : List Nat
  sent : List Nat
  completed : List Done
  failed : Nat

/-- `idr_alloc(&mtk->ring->crypto_async_idr, async, 0, EIP93_RING_NUM - 1, GFP_ATOMIC)` for the
next request. `(u16)-ENOSPC` is what is left of an error. -/
def submit (d : Dev) : Dev :=
  match Ids.alloc (ringNum - 1) d.idr d.ids.length with
  | some (id, idr) => { d with idr := idr, ids := d.ids ++ [id] }
  | none => { d with ids := d.ids ++ [65508], failed := d.failed + 1 }

/-- The last descriptor of request `r`; when there is no room the request tries again. -/
def putLast (r : Nat) (desc : Descriptor) (d : Dev) : Option Dev :=
  match d.ids[r]? with
  | some id =>
    if desc.last = true ∧ desc.cryptoIdr = BitVec.ofNat 16 id ∧ r ∉ d.sent then
      (putRdr desc d.ring).map fun ring =>
        { d with
          ring := ring
          sent := match ring.writer with
            | .idle => d.sent
            | _ => d.sent ++ [r] }
    else
      none
  | none => none

/-- What is done with the last result of a request. -/
def complete (rdesc : Descriptor) (d : Dev) : Dev :=
  { d with
    idr := Ids.remove d.idr rdesc.cryptoIdr.toNat
    completed := d.completed ++
      [{ handlers := rdesc.handlers, async := d.idr rdesc.cryptoIdr.toNat,
         err := eip93ParseCtrlStatErr rdesc.err }] }

/-- `writel(1, mtk->base + EIP93_REG_PE_RD_COUNT)`, and what follows a last result. -/
def ackDone (d : Dev) : Option Dev :=
  match d.ring.reader with
  | .loaded _ rdesc =>
    (ack d.ring).map fun ring =>
      if rdesc.last then complete rdesc { d with ring := ring } else { d with ring := ring }
  | _ => none

/-- What can happen. -/
inductive Event where
  | submit
  | putLast (r : Nat) (desc : Descriptor)
  | ring (a : Act)

/-- A put of a last descriptor is a `putLast`. -/
def Act.plain : Act → Bool
  | .putRdr desc => !desc.last
  | _ => true

/-- One step. -/
def devStep (pe : Engine) (d : Dev) : Event → Option Dev
  | .submit => some (submit d)
  | .putLast r desc => putLast r desc d
  | .ring .ack => ackDone d
  | .ring a => if a.plain then (step pe d.ring a).map fun ring => { d with ring := ring } else none

/-- A run. -/
def devRun (pe : Engine) : Dev → List Event → Option Dev
  | d, [] => some d
  | d, e :: es => (devStep pe d e).bind fun d' => devRun pe d' es

/-- The engine after its probe. -/
def devInit (cb rb : Int) (cmem rmem : Int → Descriptor) : Dev where
  ring := eip93DescInit cb rb cmem rmem
  idr := fun _ => none
  ids := []
  sent := []
  completed := []
  failed := 0

/-! ## Last descriptors -/

/-- The descriptor a put under way is about. -/
def Writer.desc : Writer → List Descriptor
  | .rdrTaken _ desc | .bothTaken _ _ desc | .cleared _ desc => [desc]
  | .idle | .copied => []

/-- The last descriptors that have been handed over, in their order. -/
def Sys.lasts (s : Sys) : List Descriptor := (s.accepted ++ s.writer.desc).filter (·.last)

/-- A last result that is read and not completed. -/
def Reader.lastDue : Reader → Nat
  | .loaded _ d => if d.last then 1 else 0
  | .idle | .more | .loop _ | .cdrTaken _ _ | .cleared _ | .rdrTaken _ _ | .waiting _ _ => 0

/-- The completion of request `r` by the result of `d`. -/
def Engine.done (pe : Engine) (r : Nat) (d : Descriptor) : Done where
  handlers := d.handlers
  async := some r
  err := eip93ParseCtrlStatErr (pe.process d).err

/-- The engine hands `user_id` on. -/
def Engine.Keeps (pe : Engine) : Prop := ∀ d, (pe.process d).userId = d.userId

variable {pe : Engine} {cb rb : Int} {s s' : Sys} {d d' : Dev}

theorem Engine.Keeps.last (h : pe.Keeps) (x : Descriptor) : (pe.process x).last = x.last := by
  rw [Descriptor.last, Descriptor.descFlags, h x]
  rfl

theorem Engine.Keeps.cryptoIdr (h : pe.Keeps) (x : Descriptor) :
    (pe.process x).cryptoIdr = x.cryptoIdr := by
  rw [Descriptor.cryptoIdr, h x]
  rfl

theorem Engine.Keeps.handlers (h : pe.Keeps) (x : Descriptor) :
    (pe.process x).handlers = x.handlers := by
  rw [Descriptor.handlers, Descriptor.descFlags, h x]
  rfl

theorem Engine.Keeps.filter_last (h : pe.Keeps) (l : List Descriptor) :
    (l.map pe.process).filter (·.last) = (l.filter (·.last)).map pe.process := by
  rw [List.filter_map]
  congr 1
  exact List.filter_congr fun x _ => h.last x

/-! ## What a step does to the last descriptors -/

theorem putRdr_lasts {desc : Descriptor} (hs : putRdr desc s = some s') :
    s.writer = .idle ∧
      ((s'.writer = .idle ∧ s'.lasts = s.lasts) ∨
        (s'.writer ≠ .idle ∧ s'.lasts = s.lasts ++ [desc].filter (·.last))) ∧
      s'.taken = s.taken ∧ s'.reader = s.reader := by
  unfold putRdr at hs
  split at hs
  case h_2 => cases hs
  case h_1 hw =>
    refine ⟨hw, ?_⟩
    split at hs
    · cases hs
      exact ⟨Or.inl ⟨hw, by simp only [Sys.lasts, hw]⟩, rfl, rfl⟩
    · cases hs
      refine ⟨Or.inr ⟨by simp, ?_⟩, rfl, rfl⟩
      simp only [Sys.lasts, hw, Writer.desc, List.append_nil, List.filter_append]

theorem putCdr_lasts (h : Inv pe cb rb s) (hs : putCdr s = some s') : s'.lasts = s.lasts := by
  have htorn := (putCdr_inv h hs).counts.torn_eq
  have h0 := h.counts.torn_eq
  unfold putCdr at hs
  split at hs
  case h_2 => cases hs
  case h_1 hw =>
    split at hs
    · cases hs
      simp only at htorn
      omega
    · cases hs
      simp only [Sys.lasts, hw, Writer.desc]

/-- A step other than a put of a last descriptor leaves the list of the last ones. -/
theorem step_lasts (h : Inv pe cb rb s) {a : Act} (ha : a.plain = true)
    (hs : step pe s a = some s') : s'.lasts = s.lasts := by
  cases a with
  | putRdr desc =>
    have hlast : desc.last = false := by simpa [Act.plain] using ha
    obtain ⟨-, ⟨-, hl⟩ | ⟨-, hl⟩, -⟩ := putRdr_lasts hs
    · exact hl
    · rw [hl, List.filter_cons_of_neg (by simp [hlast]), List.filter_nil, List.append_nil]
  | putCdr => exact putCdr_lasts h hs
  | putClear =>
    simp only [step, putClear] at hs
    split at hs
    · cases hs
      simp only [Sys.lasts, Writer.desc, *]
    · cases hs
  | putCopy =>
    simp only [step, putCopy] at hs
    split at hs
    · cases hs
      simp only [Sys.lasts, Writer.desc, List.append_nil, *]
    · cases hs
  | putFree =>
    simp only [step, putFree] at hs
    split at hs
    · cases hs
      simp only [Sys.lasts, Writer.desc, *]
    · cases hs
  | kick =>
    simp only [step, kick] at hs
    split at hs <;> cases hs
    rfl
  | fetch =>
    simp only [step, fetch] at hs
    split at hs <;> cases hs
    rfl
  | count =>
    simp only [step, count] at hs
    split at hs <;> cases hs
    rfl
  | store =>
    simp only [step, store] at hs
    split at hs <;> cases hs
    rfl
  | schedule =>
    simp only [step, schedule] at hs
    split at hs <;> cases hs
    rfl
  | poll =>
    simp only [step, poll] at hs
    split at hs <;> cases hs
    rfl
  | getCdr =>
    simp only [step, getCdr] at hs
    split at hs
    · split at hs
      · cases hs
        rfl
      · split at hs <;> cases hs <;> rfl
    · cases hs
  | getClear =>
    simp only [step, getClear] at hs
    split at hs <;> cases hs
    rfl
  | getRdr =>
    simp only [step, getRdr] at hs
    split at hs
    · split at hs <;> cases hs <;> rfl
    · cases hs
  | getFree =>
    simp only [step, getFree] at hs
    split at hs <;> cases hs
    rfl
  | load =>
    simp only [step, load] at hs
    split at hs
    · split at hs <;> cases hs
      rfl
    · cases hs
  | ack =>
    simp only [step, ack] at hs
    split at hs <;> cases hs
    rfl

/-- The last results that have been read. -/
def Sys.lastTaken (s : Sys) : Nat := (s.taken.filter (·.last)).length

/-- Only `load` reads a result, and only `ack` is done with one. -/
theorem step_lastTaken {a : Act} (ha : a ≠ .ack) (hs : step pe s a = some s') :
    s'.lastTaken + s.reader.lastDue = s.lastTaken + s'.reader.lastDue := by
  cases a with
  | putRdr desc =>
    obtain ⟨-, -, ht, hr⟩ := putRdr_lasts hs
    rw [Sys.lastTaken, ht, hr, Sys.lastTaken]
  | putCdr =>
    simp only [step, putCdr] at hs
    split at hs
    · split at hs <;> cases hs <;> rfl
    · cases hs
  | putClear | putCopy | putFree =>
    simp only [step, putClear, putCopy, putFree] at hs
    split at hs <;> cases hs
    rfl
  | kick | fetch | count | store =>
    simp only [step, kick, fetch, count, store] at hs
    split at hs <;> cases hs
    rfl
  | schedule | getClear | getFree =>
    simp only [step, schedule, getClear, getFree] at hs
    split at hs <;> cases hs
    simp only [Sys.lastTaken, Reader.lastDue, *]
  | poll =>
    simp only [step, poll] at hs
    split at hs
    case h_2 => cases hs
    case h_1 hr =>
      cases hs
      simp only [Sys.lastTaken, hr]
      by_cases h0 : s.rdCount % 2 ^ 11 = 0
      · rw [if_pos h0]
        rfl
      · rw [if_neg h0]
        rfl
  | getCdr =>
    simp only [step, getCdr] at hs
    split at hs
    · split at hs
      · cases hs
        simp only [Sys.lastTaken, Reader.lastDue, *]
      · split at hs <;> cases hs <;> simp only [Sys.lastTaken, Reader.lastDue, *]
    · cases hs
  | getRdr =>
    simp only [step, getRdr] at hs
    split at hs
    · split at hs <;> cases hs <;> simp only [Sys.lastTaken, Reader.lastDue, *]
    · cases hs
  | load =>
    simp only [step, load] at hs
    split at hs
    case h_2 => cases hs
    case h_1 left rdesc hr =>
      split at hs <;> cases hs
      simp only [Sys.lastTaken, hr, Reader.lastDue, List.filter_append, List.length_append]
      cases hl : (s.rdr.mem rdesc).last <;> simp [hl]
  | ack => exact absurd rfl ha

/-! ## The invariant -/

/-- `e` carries the id that request `r` got. -/
def Carries (ids : List Nat) (r : Nat) (e : Descriptor) : Prop :=
  ∃ id, ids[r]? = some id ∧ e.cryptoIdr = BitVec.ofNat 16 id

/-- What the engine, the table and the requests keep. -/
structure DevInv (pe : Engine) (cb rb : Int) (d : Dev) : Prop where
  ring : Inv pe cb rb d.ring
  carried : List.Forall₂ (Carries d.ids) d.sent d.ring.lasts
  nodup : d.sent.Nodup
  bound : ∀ id ∈ d.ids, id < 511
  assigned : Ids.Assigned d.idr fun r i =>
    d.ids[r]? = some i ∧ r ∉ d.sent.take d.completed.length
  completed : d.completed =
    (List.zipWith pe.done d.sent d.ring.lasts).take d.completed.length
  count : d.completed.length + d.ring.reader.lastDue = d.ring.lastTaken

theorem forall₂_getElem? {α β : Type} {R : α → β → Prop} {xs : List α} {ys : List β}
    (h : List.Forall₂ R xs ys) {k : Nat} {y : β} (hy : ys[k]? = some y) :
    ∃ x, xs[k]? = some x ∧ R x y := by
  induction h generalizing k with
  | nil => cases hy
  | cons hR _ ih =>
    cases k with
    | zero =>
      cases hy
      exact ⟨_, rfl, hR⟩
    | succ k => exact ih hy

theorem DevInv.length_sent (h : DevInv pe cb rb d) :
    d.sent.length = d.ring.lasts.length := h.carried.length_eq

theorem DevInv.completed_le (h : DevInv pe cb rb d) : d.completed.length ≤ d.sent.length := by
  have hl := congrArg List.length h.completed
  rw [List.length_take, List.length_zipWith, ← h.length_sent] at hl
  omega

/-- A request that was handed over has its number. -/
theorem DevInv.sent_lt (h : DevInv pe cb rb d) {r : Nat} (hr : r ∈ d.sent) : r < d.ids.length := by
  have hlt : List.Forall₂ (fun r (_ : Descriptor) => r < d.ids.length ∧ True) d.sent
      d.ring.lasts := by
    refine h.carried.imp ?_
    rintro r e ⟨id, hid, -⟩
    exact ⟨(List.getElem?_eq_some_iff.1 hid).1, trivial⟩
  exact (List.forall₂_and_left _ _ |>.1 hlt).1 r hr

theorem devInv_init (cmem rmem : Int → Descriptor) :
    DevInv pe cb rb (devInit cb rb cmem rmem) where
  ring := inv_init cmem rmem
  carried := List.Forall₂.nil
  nodup := List.nodup_nil
  bound := by simp [devInit]
  assigned := by intro i a; simp [devInit]
  completed := rfl
  count := rfl

/-! ## What every event keeps -/

theorem submit_devInv (h : DevInv pe cb rb d) (hf : (submit d).failed = 0) :
    d.failed = 0 ∧ DevInv pe cb rb (submit d) := by
  unfold submit at hf ⊢
  cases ha : Ids.alloc (ringNum - 1) d.idr d.ids.length with
  | none =>
    rw [ha] at hf
    simp only at hf
    omega
  | some p =>
    obtain ⟨id, idr⟩ := p
    rw [ha] at hf
    have halloc := Ids.alloc_eq_some ha
    have hlt : id < 511 := by simpa only [ringNum] using halloc.1
    have hfree := halloc.2.1
    have hidr := halloc.2.2
    subst hidr
    refine ⟨hf, { h with carried := ?_, bound := ?_, assigned := ?_ }⟩
    · refine h.carried.imp ?_
      rintro r e ⟨i, hi, he⟩
      refine ⟨i, ?_, he⟩
      rw [List.getElem?_append_left (List.getElem?_eq_some_iff.1 hi).1, hi]
    · intro i hi
      rcases List.mem_append.1 hi with hi | hi
      · exact h.bound i hi
      · rw [List.mem_singleton.1 hi]
        exact hlt
    · refine h.assigned.insert hfree ?_
      intro r j
      rcases Nat.lt_trichotomy r d.ids.length with hr | hr | hr
      · simp only [List.getElem?_append_left hr, Nat.ne_of_lt hr, false_and, or_false]
      · subst hr
        have hnew : d.ids.length ∉ d.sent.take d.completed.length := by
          intro hm
          have := h.sent_lt (List.mem_of_mem_take hm)
          omega
        simp only [List.getElem?_append_right (Nat.le_refl _), Nat.sub_self,
          List.getElem?_eq_none (Nat.le_refl _), reduceCtorEq, false_or, hnew,
          not_false_iff, and_true, true_and, List.getElem?_cons_zero, Option.some_inj]
        exact eq_comm
      · have hn : (d.ids ++ [id])[r]? = none :=
          List.getElem?_eq_none (by simp; omega)
        simp only [hn, List.getElem?_eq_none (Nat.le_of_lt hr), reduceCtorEq, false_and, false_or,
          Nat.ne_of_gt hr]

theorem putLast_devInv (h : DevInv pe cb rb d) {r : Nat} {desc : Descriptor}
    (hs : putLast r desc d = some d') : d'.failed = d.failed ∧ DevInv pe cb rb d' := by
  unfold putLast at hs
  cases hid : d.ids[r]? with
  | none =>
    rw [hid] at hs
    cases hs
  | some id =>
    rw [hid] at hs
    simp only at hs
    by_cases hg : desc.last = true ∧ desc.cryptoIdr = BitVec.ofNat 16 id ∧ r ∉ d.sent
    case neg => rw [if_neg hg] at hs; cases hs
    rw [if_pos hg] at hs
    obtain ⟨hlast, hidr, hnew⟩ := hg
    obtain ⟨ring, hput, rfl⟩ := Option.map_eq_some_iff.1 hs
    obtain ⟨-, hcase, ht, hr⟩ := putRdr_lasts hput
    have hring : Inv pe cb rb ring := putRdr_inv h.ring hput
    have hcount : d.completed.length + ring.reader.lastDue = ring.lastTaken := by
      rw [hr, Sys.lastTaken, ht]
      exact h.count
    refine ⟨rfl, ?_⟩
    rcases hcase with ⟨hw, hl⟩ | ⟨hw, hl⟩
    · simp only [hw]
      exact
        { h with
          ring := hring
          carried := by simpa only [hl] using h.carried
          completed := by simpa only [hl] using h.completed
          count := hcount }
    · have hsent : (match ring.writer with
          | .idle => d.sent
          | _ => d.sent ++ [r]) = d.sent ++ [r] := by
        cases hc : ring.writer <;> first | rfl | exact absurd hc hw
      rw [List.filter_cons_of_pos (by simpa using hlast), List.filter_nil] at hl
      rw [hsent]
      have hle := h.completed_le
      exact
        { ring := hring
          carried := by
            simp only [hl]
            exact List.rel_append h.carried (List.Forall₂.cons ⟨id, hid, hidr⟩ List.Forall₂.nil)
          nodup := by
            refine List.nodup_append.2 ⟨h.nodup, by simp, ?_⟩
            intro a ha b hb
            rw [List.mem_singleton.1 hb]
            rintro rfl
            exact hnew ha
          bound := h.bound
          assigned := by
            simp only [List.take_append_of_le_length hle]
            exact h.assigned
          completed := by
            simp only [hl]
            rw [List.zipWith_append h.length_sent, List.take_append_of_le_length]
            · exact h.completed
            · rw [List.length_zipWith, ← h.length_sent, Nat.min_self]
              exact hle
          count := hcount }

theorem ring_devInv (h : DevInv pe cb rb d) {a : Act} (hne : a ≠ .ack) (ha : a.plain = true)
    {ring : Sys} (hs : step pe d.ring a = some ring) :
    DevInv pe cb rb { d with ring := ring } := by
  have hl := step_lasts h.ring ha hs
  have ht := step_lastTaken hne hs
  have hc := h.count
  exact
    { h with
      ring := step_inv h.ring hs
      carried := by simpa only [hl] using h.carried
      completed := by simpa only [hl] using h.completed
      count := by simp only; omega }

/-- The result read last, with the request it is of. -/
theorem DevInv.current (hk : pe.Keeps) (h : DevInv pe cb rb d) {left : Nat} {x : Descriptor}
    (hr : d.ring.reader = .loaded left x) (hx : x.last = true) :
    ∃ r e id, d.sent[d.completed.length]? = some r ∧ d.ring.lasts[d.completed.length]? = some e ∧
      d.ids[r]? = some id ∧ x = pe.process e ∧ x.cryptoIdr.toNat = id := by
  have hc := h.count
  rw [hr] at hc
  simp only [Reader.lastDue, hx, if_true] at hc
  obtain ⟨init, hinit⟩ := List.getLast?_eq_some_iff.1 (h.ring.contents.loaded left x hr)
  have hfil : d.ring.taken.filter (·.last) = init.filter (·.last) ++ [x] := by
    rw [hinit, List.filter_append, List.filter_cons_of_pos (by simpa using hx), List.filter_nil]
  have hlen : (init.filter (·.last)).length = d.completed.length := by
    rw [Sys.lastTaken, hfil, List.length_append, List.length_singleton] at hc
    omega
  have hat : (d.ring.taken.filter (·.last))[d.completed.length]? = some x := by
    rw [hfil, ← hlen, List.getElem?_append_right (Nat.le_refl _), Nat.sub_self]
    rfl
  have hpre : d.ring.taken <+: d.ring.accepted.map pe.process := by
    rw [h.ring.contents.taken]
    exact List.take_prefix _ _
  obtain ⟨rest, hrest⟩ := hpre.filter (·.last)
  rw [hk.filter_last] at hrest
  have hmap : ((d.ring.accepted.filter (·.last)).map pe.process)[d.completed.length]? = some x := by
    rw [← hrest, List.getElem?_append_left (List.getElem?_eq_some_iff.1 hat).1, hat]
  rw [List.getElem?_map] at hmap
  obtain ⟨e, he, rfl⟩ := Option.map_eq_some_iff.1 hmap
  have hlast : d.ring.lasts[d.completed.length]? = some e := by
    rw [Sys.lasts, List.filter_append,
      List.getElem?_append_left (List.getElem?_eq_some_iff.1 he).1, he]
  obtain ⟨r, hsent, id, hid, hidr⟩ := forall₂_getElem? h.carried hlast
  refine ⟨r, e, id, hsent, hlast, hid, rfl, ?_⟩
  have hlt := h.bound id (List.mem_of_getElem? hid)
  rw [hk.cryptoIdr, hidr, BitVec.toNat_ofNat, Nat.mod_eq_of_lt (by omega)]

theorem complete_devInv (hk : pe.Keeps) (h : DevInv pe cb rb d) {left : Nat} {x : Descriptor}
    {ring : Sys} (hr : d.ring.reader = .loaded left x) (hx : x.last = true)
    (hs : ack d.ring = some ring) : DevInv pe cb rb (complete x { d with ring := ring }) := by
  obtain ⟨r, e, id, hsent, hlast, hid, rfl, hidr⟩ := h.current hk hr hx
  have hring : Inv pe cb rb ring := ack_inv h.ring hs
  have hl : ring.lasts = d.ring.lasts := step_lasts (a := .ack) h.ring rfl hs
  have hrdr : ring.reader.lastDue = 0 ∧ ring.taken = d.ring.taken := by
    rw [ack, hr] at hs
    simp only [hx, if_true] at hs
    cases hs
    exact ⟨rfl, rfl⟩
  have hnew : r ∉ d.sent.take d.completed.length := by
    intro hm
    have hnd := h.nodup
    rw [← List.take_append_drop d.completed.length d.sent] at hnd
    have hdrop : r ∈ d.sent.drop d.completed.length := by
      refine List.mem_of_getElem? (i := 0) ?_
      rw [List.getElem?_drop, Nat.add_zero, hsent]
    exact (List.nodup_append.1 hnd).2.2 r hm r hdrop rfl
  have hown : d.idr id = some r := (h.assigned id r).2 ⟨hid, hnew⟩
  have hc := h.count
  have htake : d.sent.take (d.completed.length + 1) = d.sent.take d.completed.length ++ [r] := by
    rw [List.take_add_one, hsent]
    rfl
  exact
    { ring := hring
      carried := by simpa only [complete, hl] using h.carried
      nodup := h.nodup
      bound := h.bound
      assigned := by
        simp only [complete, hidr, List.length_append, List.length_singleton, htake]
        refine h.assigned.erase ?_
        intro b j
        rw [List.mem_append, List.mem_singleton, not_or, and_assoc]
        refine and_congr_right fun hb => and_congr_right fun hnb => not_congr ?_
        constructor
        · rintro rfl
          rw [hid] at hb
          exact (Option.some.inj hb).symm
        · rintro rfl
          have hb' := (h.assigned j b).2 ⟨hb, hnb⟩
          rw [hown] at hb'
          exact (Option.some.inj hb').symm
      completed := by
        simp only [complete, hidr, hown, hl, List.length_append, List.length_singleton]
        rw [List.take_add_one, ← h.completed, List.getElem?_zipWith, hsent, hlast]
        rw [hk.handlers]
        rfl
      count := by
        rw [hr] at hc
        simp only [Reader.lastDue, hx, if_true] at hc
        simp only [complete, List.length_append, List.length_singleton, hrdr.1, Nat.add_zero, hc,
          Sys.lastTaken, hrdr.2] }

theorem ackDone_devInv (hk : pe.Keeps) (h : DevInv pe cb rb d) (hs : ackDone d = some d') :
    d'.failed = d.failed ∧ DevInv pe cb rb d' := by
  unfold ackDone at hs
  split at hs
  case h_2 => cases hs
  case h_1 left x hr =>
    obtain ⟨ring, hack, rfl⟩ := Option.map_eq_some_iff.1 hs
    cases hx : x.last with
    | true => exact ⟨rfl, complete_devInv hk h hr hx hack⟩
    | false =>
      have hl : ring.lasts = d.ring.lasts := step_lasts (a := .ack) h.ring rfl hack
      have hc := h.count
      have hrest : ring.reader.lastDue = 0 ∧ ring.taken = d.ring.taken := by
        rw [ack, hr] at hack
        cases hack
        simp [hx, Reader.lastDue]
      rw [hr] at hc
      simp only [Reader.lastDue, hx, Bool.false_eq_true, if_false] at hc
      simp only [Bool.false_eq_true, if_false]
      refine ⟨trivial, ?_⟩
      exact
        { h with
          ring := ack_inv h.ring hack
          carried := by simpa only [hl] using h.carried
          completed := by simpa only [hl] using h.completed
          count := by
            simp only [hrest.1, Sys.lastTaken, hrest.2]
            exact hc }

/-- A step, in which `idr_alloc` does not fail. -/
theorem devStep_devInv (hk : pe.Keeps) (h : DevInv pe cb rb d) {e : Event}
    (hs : devStep pe d e = some d') (hf : d'.failed = 0) : DevInv pe cb rb d' := by
  cases e with
  | submit =>
    have he : submit d = d' := Option.some.inj hs
    rw [← he] at hf ⊢
    exact (submit_devInv h hf).2
  | putLast r desc => exact (putLast_devInv h hs).2
  | ring a =>
    by_cases hack : a = .ack
    · subst hack
      exact (ackDone_devInv hk h hs).2
    · have hs' : (if a.plain then (step pe d.ring a).map fun ring => { d with ring := ring }
          else none) = some d' := by
        cases a <;> first | exact hs | exact absurd rfl hack
      split at hs'
      · obtain ⟨ring, hstep, rfl⟩ := Option.map_eq_some_iff.1 hs'
        exact ring_devInv h hack ‹_› hstep
      · cases hs'

theorem putLast_failed {r : Nat} {desc : Descriptor} (hs : putLast r desc d = some d') :
    d'.failed = d.failed := by
  unfold putLast at hs
  split at hs
  · split at hs
    · obtain ⟨ring, -, rfl⟩ := Option.map_eq_some_iff.1 hs
      rfl
    · cases hs
  · cases hs

theorem ackDone_failed (hs : ackDone d = some d') : d'.failed = d.failed := by
  unfold ackDone at hs
  split at hs
  · obtain ⟨ring, -, rfl⟩ := Option.map_eq_some_iff.1 hs
    split <;> rfl
  · cases hs

/-- A step of the rings. -/
theorem devStep_ring {a : Act} (ha : a ≠ .ack) : devStep pe d (.ring a) =
    if a.plain then (step pe d.ring a).map fun ring => { d with ring := ring } else none := by
  cases a <;> first | rfl | exact absurd rfl ha

theorem devStep_failed {e : Event} (hs : devStep pe d e = some d') : d.failed ≤ d'.failed := by
  cases e with
  | submit =>
    have he : submit d = d' := Option.some.inj hs
    rw [← he]
    unfold submit
    split
    · exact Nat.le_refl _
    · exact Nat.le_succ _
  | putLast r desc => exact (putLast_failed hs).ge
  | ring a =>
    by_cases hack : a = .ack
    · subst hack
      exact (ackDone_failed hs).ge
    · rw [devStep_ring hack] at hs
      split at hs
      · obtain ⟨ring, -, rfl⟩ := Option.map_eq_some_iff.1 hs
        exact Nat.le_refl _
      · cases hs

/-! ## Runs -/

variable {es : List Event}

theorem devRun_failed (hs : devRun pe d es = some d') : d.failed ≤ d'.failed := by
  induction es generalizing d with
  | nil =>
    cases hs
    exact Nat.le_refl _
  | cons e es ih =>
    obtain ⟨d1, h1, h2⟩ := Option.bind_eq_some_iff.1 hs
    exact (devStep_failed h1).trans (ih h2)

theorem devRun_devInv (hk : pe.Keeps) (h : DevInv pe cb rb d) (hs : devRun pe d es = some d')
    (hf : d'.failed = 0) : DevInv pe cb rb d' := by
  induction es generalizing d with
  | nil =>
    cases hs
    exact h
  | cons e es ih =>
    obtain ⟨d1, h1, h2⟩ := Option.bind_eq_some_iff.1 hs
    have h0 : d1.failed = 0 := Nat.le_zero.1 (hf ▸ devRun_failed h2)
    exact ih (devStep_devInv hk h h1 h0) h2

variable {cmem rmem : Int → Descriptor}

/-- In every run in which `idr_alloc` finds an id for each request, the completions are those of
the requests in the order in which their last descriptors were handed over, each with what the
engine made of its own last descriptor, the one that carries its id; and no request is among them
twice. -/
theorem completed_in_order (hk : pe.Keeps)
    (hr : devRun pe (devInit cb rb cmem rmem) es = some d) (hf : d.failed = 0) :
    d.completed <+: List.zipWith pe.done d.sent d.ring.lasts ∧
      List.Forall₂ (Carries d.ids) d.sent d.ring.lasts ∧ d.sent.Nodup := by
  have h := devRun_devInv hk (devInv_init cmem rmem) hr hf
  refine ⟨?_, h.carried, h.nodup⟩
  rw [h.completed]
  exact List.take_prefix _ _

/-- The last descriptor of an AES request with id `id`. -/
def lastProbe (id : Nat) : Descriptor :=
  { Descriptor.zero with userId := 0x1080000#32 ||| BitVec.ofNat 32 id }

/-- Two requests; the second one is sent first, and is taken. -/
def requestsRun : Option Dev :=
  devRun echo (devInit 64 0x10000 (fun _ => .zero) fun _ => .zero)
    ([.submit, .submit, .putLast 1 (lastProbe 1)] ++
      [Act.putCdr, .putClear, .putCopy, .putFree, .kick, .fetch, .count].map .ring ++
      [.putLast 0 (lastProbe 0)] ++
      [Act.store, .schedule, .poll, .getCdr, .getClear, .getRdr, .getFree, .load, .ack].map .ring)

theorem completed_in_order_pair : echo.Keeps ∧ ∃ d, requestsRun = some d ∧ d.failed = 0 ∧
    d.sent = [1, 0] ∧ d.completed = [⟨[.skcipher], some 1, 0⟩] ∧
    d.completed <+: List.zipWith echo.done d.sent d.ring.lasts ∧
    List.Forall₂ (Carries d.ids) d.sent d.ring.lasts ∧ d.sent.Nodup := by
  have hk : echo.Keeps := fun _ => rfl
  have hrun : requestsRun.map (fun d => (d.failed, d.sent, d.completed)) =
      some (0, [1, 0], [⟨[.skcipher], some 1, 0⟩]) := by
    decide +kernel
  obtain ⟨d, hd, he⟩ := Option.map_eq_some_iff.1 hrun
  simp only [Prod.mk.injEq] at he
  obtain ⟨hf, hs, hc⟩ := he
  exact ⟨hk, d, hd, hf, hs, hc, completed_in_order hk hd hf⟩

theorem async_zipWith {xs : List Nat} {ys : List Descriptor} (h : xs.length = ys.length) :
    (List.zipWith pe.done xs ys).map Done.async = xs.map some := by
  induction xs generalizing ys with
  | nil => rfl
  | cons x xs ih =>
    cases ys with
    | nil => cases h
    | cons y ys =>
      rw [List.zipWith_cons_cons, List.map_cons, List.map_cons, ih (Nat.succ.inj h)]
      rfl

/-- The steps that are left, without a new put, are steps of the whole as well. -/
theorem devRun_of_run {as : List Act} {s : Sys} (hin : ∀ a ∈ as, a.inside = true)
    (hr : run pe d.ring as = some s) :
    ∃ d', devRun pe d (as.map .ring) = some d' ∧ d'.ring = s ∧ d'.sent = d.sent ∧
      d'.failed = d.failed := by
  induction as generalizing d with
  | nil =>
    cases hr
    exact ⟨d, rfl, rfl, rfl, rfl⟩
  | cons a as ih =>
    obtain ⟨s1, h1, h2⟩ := Option.bind_eq_some_iff.1 hr
    have ha := hin a List.mem_cons_self
    have hrest : ∀ b ∈ as, b.inside = true := fun b hb => hin b (List.mem_cons_of_mem a hb)
    have hone : ∃ d1, devStep pe d (.ring a) = some d1 ∧ d1.ring = s1 ∧ d1.sent = d.sent ∧
        d1.failed = d.failed := by
      by_cases hack : a = .ack
      · subst hack
        have hs : ack d.ring = some s1 := h1
        cases hrd : d.ring.reader with
        | loaded left x =>
          refine ⟨if x.last then complete x { d with ring := s1 } else { d with ring := s1 },
            ?_, ?_, ?_, ?_⟩
          · simp only [devStep, ackDone, hrd, hs, Option.map_some]
          all_goals split <;> rfl
        | _ => simp [ack, hrd] at hs
      · have hp : a.plain = true := by
          cases a <;> first | rfl | cases ha
        exact ⟨{ d with ring := s1 }, by rw [devStep_ring hack, if_pos hp, h1]; rfl, rfl, rfl, rfl⟩
    obtain ⟨d1, hd1, hring, hsent, hfail⟩ := hone
    obtain ⟨d', hd', hring', hsent', hfail'⟩ := ih (d := d1) hrest (by rw [hring]; exact h2)
    refine ⟨d', ?_, hring', hsent'.trans hsent, hfail'.trans hfail⟩
    rw [List.map_cons, devRun, hd1, Option.bind_some, hd']

/-- From every state of such a run, what is under way and due is enough to complete every request
whose last descriptor has been handed over, once each. -/
theorem all_completed (hk : pe.Keeps) (hm : pe.Marks)
    (hr : devRun pe (devInit cb rb cmem rmem) es = some d) (hf : d.failed = 0) :
    ∃ (as : List Act) (d' : Dev), (∀ a ∈ as, a.inside = true) ∧
      devRun pe d (as.map .ring) = some d' ∧
      d'.sent = d.sent ∧ d'.completed.map Done.async = d.sent.map some := by
  have h := devRun_devInv hk (devInv_init cmem rmem) hr hf
  obtain ⟨s', ⟨as, hin, hrun⟩, -, htaken, hw, hrd, -⟩ := drains_of_inv hm h.ring
  obtain ⟨d', hd', rfl, hsent, hfail⟩ := devRun_of_run hin hrun
  have h' := devRun_devInv hk h hd' (hfail.trans hf)
  refine ⟨as, d', hin, hd', hsent, ?_⟩
  have hlen : d'.completed.length = d'.sent.length := by
    have hc := h'.count
    rw [hrd, Reader.lastDue, Nat.add_zero, Sys.lastTaken, htaken, hk.filter_last,
      List.length_map] at hc
    rw [hc, h'.length_sent, Sys.lasts, hw, Writer.desc, List.append_nil]
  have hfull : (List.zipWith pe.done d'.sent d'.ring.lasts).length = d'.completed.length := by
    rw [List.length_zipWith, ← h'.length_sent, Nat.min_self, hlen]
  rw [h'.completed, ← hfull, List.take_length, async_zipWith h'.length_sent, hsent]

theorem all_completed_pair : echo.Keeps ∧ echo.Marks ∧ ∃ d, requestsRun = some d ∧ d.failed = 0 ∧
    ∃ (as : List Act) (d' : Dev), (∀ a ∈ as, a.inside = true) ∧
      devRun echo d (as.map .ring) = some d' ∧ d'.sent = d.sent ∧
      d'.completed.map Done.async = d.sent.map some := by
  have hk : echo.Keeps := fun _ => rfl
  have hf : requestsRun.map (·.failed) = some 0 := by decide +kernel
  obtain ⟨d, hd, hf⟩ := Option.map_eq_some_iff.1 hf
  exact ⟨hk, echo_marks, d, hd, hf, all_completed hk echo_marks hd hf⟩

end Airoha.Eip93
