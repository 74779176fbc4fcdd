/-
Airoha.Qdma.TxRingRuns — the chain of descriptors over whole runs.

The engine follows NEXT_ID from one packet to the next, and what the last
descriptor of a packet names is the entry in front of `tx_list` at that time. So
the chain holds as long as that entry stays in front. Packets take from the
front, completions add to the back. A packet that cannot be mapped gives its
entries back at the end of the list: the front is another one then, unless its
first fragment was the one that failed. `ringRun_linked`: the runs without such
packets keep the chain.
-/
import Mathlib.Data.List.Range
import Mathlib.Data.List.Perm.Subperm
import Airoha.Qdma.TxRing

namespace Airoha.Qdma

section Ring

variable {σ : Type}

/-! ## What is meant -/

/-- Every entry is free or queued. -/
def TxQueue.Counted (q : TxQueue σ) : Prop := q.queued + q.txList.length = q.ndesc

/-- Each descriptor of a packet has MORE and names the next one; the last has not. -/
def Linked (q : TxQueue σ) : List Nat → Prop
  | [] => False
  | [e] => (q.desc (indexOf e)).more = false
  | e :: e' :: rest =>
      (q.desc (indexOf e)).more = true ∧ (q.desc (indexOf e)).nextId = indexOf e' ∧
        Linked q (e' :: rest)

/-- NEXT_ID of the last descriptor of a packet. -/
def lastNextId (q : TxQueue σ) (used : List Nat) : Option (BitVec 16) :=
  used.getLast?.map fun e => (q.desc (indexOf e)).nextId

/-- The first descriptor of a packet is the one the packet before it names. -/
def Follows (last : Option (BitVec 16)) (used : List Nat) : Prop :=
  ∀ id, last = some id → used.head?.map indexOf = some id

/-- Of every state and every packet of a run; `last` is NEXT_ID of the last descriptor of the last
packet that was accepted. -/
def RingRun : Option (BitVec 16) → TxQueue σ → List (TxOp σ) → Prop
  | _, q, [] => q.Counted
  | last, q, op :: ops => q.Counted ∧
      match q.step op with
      | (some (.accepted used), q') =>
          Follows last used ∧ Linked q' used ∧ RingRun (lastNextId q' used) q' ops
      | (some .empty, _) => False
      | (_, q') => RingRun last q' ops

/-- The packet gets as far as the loop over its fragments. -/
def TxKind.Reaches (k : TxKind) (x : Skb σ) (q : TxQueue σ) : Prop :=
  x.cowFails = false ∧ q.ndesc ≠ 0 ∧ (k.dropsKeepAlive && x.keepAlive) = false ∧
    q.queued + x.nrFrags < q.ndesc

/-- When a fragment cannot be mapped, the first one cannot. -/
def Skb.FailsFirst (x : Skb σ) : Prop := x.head.addr = none ∨ ∀ f ∈ x.frags, f.addr ≠ none

/-- Of the packet of a call, when it gets to the loop. -/
def TxOp.FailsFirst (q : TxQueue σ) : TxOp σ → Prop
  | .transmitPacket x => transmitPacketKind.Reaches x q → x.FailsFirst
  | .wanTx x => wanTxKind.Reaches x q → x.FailsFirst
  | .fastTx x => fastTxKind.Reaches x q → x.FailsFirst
  | .complete _ => True

/-- Of every packet of a run. -/
def RunFailsFirst : TxQueue σ → List (TxOp σ) → Prop
  | _, [] => True
  | q, op :: ops => op.FailsFirst q ∧ RunFailsFirst (q.step op).2 ops

/-! ## The loop over the fragments -/

/-- A queue that is written, with its entries and counts left. -/
structure SameSize (q q' : TxQueue σ) : Prop where
  ndesc : q'.ndesc = q.ndesc
  queued : q'.queued = q.queued

theorem indexOf_inj {a b : Nat} (ha : a < 65536) (hb : b < 65536) (h : indexOf a = indexOf b) :
    a = b := by
  have hnat := congrArg BitVec.toNat h
  simp only [indexOf, BitVec.toNat_ofNat] at hnat
  omega

/-- The first `n` entries of the list are taken, and each names the one behind it. -/
structure Chained (x : Skb σ) (i n : Nat) (q q' : TxQueue σ) : Prop where
  same : SameSize q q'
  txList : q'.txList = q.txList.drop n
  frame : ∀ v, (∀ a ∈ q.txList.take n, indexOf a ≠ v) → q'.desc v = q.desc v
  link : ∀ k a b, k < n → q.txList[k]? = some a → q.txList[k + 1]? = some b →
    (q'.desc (indexOf a)).nextId = indexOf b ∧
      (q'.desc (indexOf a)).more = decide (i + k < x.nrFrags - 1)

theorem Chained.refl (x : Skb σ) (i : Nat) (q : TxQueue σ) : Chained x i 0 q q where
  same := ⟨rfl, rfl⟩
  txList := rfl
  frame := fun _ _ => rfl
  link := fun _ _ _ hk => absurd hk (Nat.not_lt_zero _)

/-- The entry in front is taken, and its descriptor names the one behind it. -/
structure FrontTaken (x : Skb σ) (i e e' : Nat) (l : List Nat) (q q1 : TxQueue σ) : Prop where
  same : SameSize q q1
  txList : q1.txList = e' :: l
  frame : ∀ v, indexOf e ≠ v → q1.desc v = q.desc v
  link : (q1.desc (indexOf e)).nextId = indexOf e' ∧
    (q1.desc (indexOf e)).more = decide (i < x.nrFrags - 1)

theorem txLoop_cons (withMsg2 : Bool) (x : Skb σ) {f : Frag} {addr : BitVec 64} (rest : List Frag)
    (i : Nat) {e e' : Nat} {l : List Nat} {q : TxQueue σ} (txList : List Nat)
    (hf : f.addr = some addr) (hl : q.txList = e :: e' :: l) :
    ∃ q1, FrontTaken x i e e' l q q1 ∧ txLoop withMsg2 x (f :: rest) i e q txList =
      txLoop withMsg2 x rest (i + 1) e' q1 (txList ++ [e]) := by
  refine ⟨(q.take e
    { skb := if i = 0 then some x.skb else none
      dmaAddr := addr
      dmaLen := f.len.setWidth 16 }).writeDesc (indexOf e)
    { len := f.len.setWidth 16
      more := decide (i < x.nrFrags - 1)
      addr := addr.setWidth 32
      nextId := indexOf e'
      msg0 := x.msg0
      msg1 := x.msg1
      msg2 := x.msg2 } withMsg2, ⟨⟨rfl, rfl⟩, ?_, ?_, ?_⟩, ?_⟩
  · simp [TxQueue.take, TxQueue.writeDesc, hl]
  · intro v hv
    simp [TxQueue.take, TxQueue.writeDesc, Function.update_of_ne (Ne.symm hv)]
  · cases withMsg2 <;> simp [TxQueue.writeDesc]
  · simp [txLoop, hf, TxQueue.take, hl]

/-- One fragment and those behind it. -/
theorem Chained.cons {x : Skb σ} {i n e e' : Nat} {l : List Nat} {q q1 q' : TxQueue σ}
    (hl : q.txList = e :: e' :: l) (hnodup : q.txList.Nodup) (hlt : ∀ a ∈ q.txList, a < 65536)
    (h1 : FrontTaken x i e e' l q q1) (h : Chained x (i + 1) n q1 q') :
    Chained x i (n + 1) q q' := by
  have hother : ∀ a ∈ q1.txList.take n, indexOf a ≠ indexOf e := by
    intro a ha heq
    have hmem : a ∈ e' :: l := by
      rw [← h1.txList]
      exact List.mem_of_mem_take ha
    rw [hl] at hnodup hlt
    have hae : a = e :=
      indexOf_inj (hlt a (List.mem_cons_of_mem e hmem)) (hlt e List.mem_cons_self) heq
    rw [hae] at hmem
    exact (List.nodup_cons.mp hnodup).1 hmem
  constructor
  · exact ⟨h.same.ndesc.trans h1.same.ndesc, h.same.queued.trans h1.same.queued⟩
  · rw [h.txList, h1.txList, hl]
    rfl
  · intro v hv
    rw [hl] at hv
    rw [h.frame v, h1.frame v]
    · exact hv e List.mem_cons_self
    · intro a ha
      rw [h1.txList] at ha
      exact hv a (List.mem_cons_of_mem e ha)
  · intro k a b hk ha hb
    rw [hl] at ha hb
    cases k with
    | zero =>
      have hea : e = a := by simpa using ha
      have heb : e' = b := by simpa using hb
      rw [← hea, ← heb, h.frame (indexOf e) hother]
      exact h1.link
    | succ k =>
      have hlink := h.link k a b (by omega) (by simpa [h1.txList] using ha)
        (by simpa [h1.txList] using hb)
      rw [Nat.add_assoc, Nat.add_comm 1 k] at hlink
      exact hlink

/-- How the loop ends: all fragments have an entry, or the first `m` of them have and the next
cannot be mapped. -/
inductive LoopCase (x : Skb σ) (frags : List Frag) (i : Nat) (q : TxQueue σ) (txList : List Nat) :
    LoopEnd σ → Prop where
  | done (q' : TxQueue σ) (index : BitVec 16) (h : Chained x i frags.length q q') :
      LoopCase x frags i q txList (.done q' index (txList ++ q.txList.take frags.length))
  | errorUnmap (q' : TxQueue σ) (m : Nat) (f : Frag) (h : Chained x i m q q')
      (hf : frags[m]? = some f) (hbad : f.addr = none) (hgood : ∀ g ∈ frags.take m, g.addr ≠ none) :
      LoopCase x frags i q txList (.errorUnmap q' (txList ++ q.txList.take m))

/-- By induction over the fragments: a list that is long enough does not run empty. -/
theorem txLoop_cases (withMsg2 : Bool) (x : Skb σ) {frags : List Frag} {i e : Nat} {l : List Nat}
    {q : TxQueue σ} (txList : List Nat) (hl : q.txList = e :: l) (hnodup : q.txList.Nodup)
    (hlt : ∀ a ∈ q.txList, a < 65536) (hlen : frags.length < q.txList.length) :
    LoopCase x frags i q txList (txLoop withMsg2 x frags i e q txList) := by
  induction frags generalizing i e l q txList with
  | nil =>
    have hcase : LoopCase x [] i q txList _ := .done q (indexOf e) (Chained.refl x i q)
    simpa [txLoop] using hcase
  | cons f rest ih =>
    cases hf : f.addr with
    | none =>
      have hcase : LoopCase x (f :: rest) i q txList _ :=
        .errorUnmap q 0 f (Chained.refl x i q) rfl hf (by simp)
      simpa [txLoop, hf] using hcase
    | some addr =>
      obtain ⟨e', l', rfl⟩ : ∃ e' l', l = e' :: l' := by
        cases l with
        | nil => simp [hl] at hlen
        | cons e' l' => exact ⟨e', l', rfl⟩
      obtain ⟨q1, h1, hloop⟩ := txLoop_cons withMsg2 x rest i txList hf hl
      have hcons : ∀ {n : Nat} {q' : TxQueue σ}, Chained x (i + 1) n q1 q' →
          Chained x i (n + 1) q q' := Chained.cons hl hnodup hlt h1
      have htake : ∀ n, txList ++ [e] ++ q1.txList.take n = txList ++ q.txList.take (n + 1) := by
        intro n
        rw [h1.txList, hl, List.append_assoc]
        rfl
      rw [hl] at hnodup hlt hlen
      rw [← h1.txList] at hnodup hlt hlen
      have hrest := ih (i := i + 1) (txList ++ [e]) h1.txList (List.nodup_cons.mp hnodup).2
        (fun a ha => hlt a (List.mem_cons_of_mem e ha)) (Nat.lt_of_succ_lt_succ hlen)
      rw [hloop]
      generalize txLoop withMsg2 x rest (i + 1) e' q1 (txList ++ [e]) = r at hrest
      cases hrest with
      | done q' index h =>
        rw [htake]
        exact LoopCase.done q' index (hcons h)
      | errorUnmap q' m g h hg hbad hgood =>
        rw [htake]
        refine LoopCase.errorUnmap q' (m + 1) g (hcons h) (by simpa using hg) hbad ?_
        intro g' hg'
        rcases List.mem_cons.mp hg' with rfl | hg'
        · simp [hf]
        · exact hgood g' hg'

/-- What is unmapped goes to the back. -/
theorem errorUnmap_eq {txList : List Nat} {q : TxQueue σ} :
    SameSize q (errorUnmap txList q) ∧ (errorUnmap txList q).txList = q.txList ++ txList := by
  induction txList generalizing q with
  | nil => exact ⟨⟨rfl, rfl⟩, (List.append_nil _).symm⟩
  | cons e txList ih =>
    obtain ⟨hsame, hlist⟩ := ih (q :=
      { q with
        entry := Function.update q.entry e { q.entry e with dmaAddr := 0#64 }
        txList := q.txList ++ [e] })
    refine ⟨⟨hsame.ndesc, hsame.queued⟩, ?_⟩
    rw [errorUnmap, hlist, List.append_assoc]
    rfl

/-! ## One packet -/

/-- The packet's descriptors, from what the loop leaves. -/
theorem linked_of_link {q' : TxQueue σ} {nrFrags : Nat} : ∀ {n i : Nat} {l : List Nat},
    n + 1 < l.length → i + (n + 1) = nrFrags →
    (∀ k a b, k < n + 1 → l[k]? = some a → l[k + 1]? = some b →
      (q'.desc (indexOf a)).nextId = indexOf b ∧
        (q'.desc (indexOf a)).more = decide (i + k < nrFrags - 1)) →
    Linked q' (l.take (n + 1)) := by
  intro n
  induction n with
  | zero =>
    intro i l hlt hn hlink
    match l, hlt with
    | e :: e' :: l, _ =>
      have hfirst := (hlink 0 e e' (by omega) rfl rfl).2
      exact hfirst.trans (decide_eq_false (by omega))
  | succ n ih =>
    intro i l hlt hn hlink
    match l, hlt with
    | e :: e' :: l, hlt =>
      obtain ⟨hnext, hmore⟩ := hlink 0 e e' (by omega) rfl rfl
      have hrest : Linked q' ((e' :: l).take (n + 1)) := by
        refine ih (i := i + 1) (Nat.lt_of_succ_lt_succ hlt) (by omega) ?_
        intro k a b hk ha hb
        have h := hlink (k + 1) a b (by omega) (by simpa using ha) (by simpa using hb)
        rw [← Nat.add_assoc, Nat.add_right_comm] at h
        exact h
      exact ⟨hmore.trans (decide_eq_true (by omega)), hnext, hrest⟩

/-- The last descriptor of a packet names the entry that is in front then. -/
theorem Chained.lastNextId {x : Skb σ} {n : Nat} {q q' : TxQueue σ}
    (h : Chained x 0 (n + 1) q q') (hlt : n + 1 < q.txList.length) :
    lastNextId q' (q.txList.take (n + 1)) = q'.txList.head?.map indexOf := by
  have ha : q.txList[n]? = some q.txList[n] := List.getElem?_eq_getElem (by omega)
  have hb : q.txList[n + 1]? = some q.txList[n + 1] := List.getElem?_eq_getElem hlt
  have hlast : (q.txList.take (n + 1)).getLast? = some q.txList[n] := by
    rw [List.getLast?_take]
    simp [ha]
  have hnext := (h.link n _ _ (by omega) ha hb).1
  rw [Airoha.Qdma.lastNextId, hlast, h.txList, List.head?_drop, hb]
  simp [hnext]

/-- The list has every free entry once. -/
structure TxQueue.Wf (q : TxQueue σ) : Prop where
  nodup : q.txList.Nodup
  lt : ∀ e ∈ q.txList, e < q.ndesc
  counted : q.Counted

/-- What becomes of a packet: nothing changes but registers and entries, it gives back entries at
the other end, or it is queued. -/
inductive TransmitCase (k : TxKind) (x : Skb σ) (q : TxQueue σ) : TxResult × TxQueue σ → Prop where
  | kept (res : TxResult) (q' : TxQueue σ) (hres : res = .dropped ∨ res = .busy)
      (h : SameSize q q') (hl : q'.txList = q.txList) : TransmitCase k x q (res, q')
  | rotated (q' : TxQueue σ) (m : Nat) (h : SameSize q q')
      (hl : q'.txList = q.txList.drop m ++ q.txList.take m)
      (hlate : ¬ (k.Reaches x q → x.FailsFirst)) : TransmitCase k x q (.dropped, q')
  | accepted (q' : TxQueue σ) (hn : x.nrFrags < q.txList.length) (hndesc : q'.ndesc = q.ndesc)
      (hqueued : q'.queued = q.queued + x.nrFrags) (hl : q'.txList = q.txList.drop x.nrFrags)
      (hlinked : Linked q' (q.txList.take x.nrFrags))
      (hlast : lastNextId q' (q.txList.take x.nrFrags) = q'.txList.head?.map indexOf) :
      TransmitCase k x q (.accepted (q.txList.take x.nrFrags), q')

/-- The registers and the `netdev_queue` behind the loop. -/
theorem kick_eq (k : TxKind) (x : Skb σ) (index : BitVec 16) (q : TxQueue σ) :
    SameSize q (TxQueue.kick k x index q) ∧ (TxQueue.kick k x index q).txList = q.txList ∧
      (TxQueue.kick k x index q).desc = q.desc := by
  simp only [TxQueue.kick]
  split_ifs <;> exact ⟨⟨rfl, rfl⟩, rfl, rfl⟩

theorem linked_congr {q q' : TxQueue σ} (h : q'.desc = q.desc) : ∀ {used : List Nat},
    Linked q used → Linked q' used
  | [], hl => hl
  | [e], hl => by
      unfold Linked at hl ⊢
      rw [h]
      exact hl
  | e :: e' :: rest, hl => by
      unfold Linked at hl ⊢
      rw [h]
      exact ⟨hl.1, hl.2.1, linked_congr h hl.2.2⟩

/-- A packet that gets to the loop. -/
theorem queueSkb_cases (k : TxKind) (x : Skb σ) {q : TxQueue σ} (hq : q.Wf)
    (hsize : q.ndesc ≤ 65536) (hreach : k.Reaches x q) : TransmitCase k x q (queueSkb k x q) := by
  have hcount : q.queued + q.txList.length = q.ndesc := hq.counted
  have hroom := hreach.2.2.2
  have hn : x.nrFrags < q.txList.length := by omega
  have hfrags : (x.head :: x.frags).length = x.nrFrags := by simp [Skb.nrFrags, Nat.add_comm]
  have hsucc : x.frags.length + 1 = x.nrFrags := by simp [Skb.nrFrags, Nat.add_comm]
  have hlt : ∀ a ∈ q.txList, a < 65536 := fun a ha => lt_of_lt_of_le (hq.lt a ha) hsize
  unfold queueSkb
  cases hl : q.txList with
  | nil => simp [hl] at hn
  | cons e l =>
    have hloop := txLoop_cases (i := 0) k.withMsg2 x [] hl hq.nodup hlt (by rw [hfrags]; exact hn)
    simp only
    generalize txLoop k.withMsg2 x (x.head :: x.frags) 0 e q [] = r at hloop
    cases hloop with
    | done q' index h =>
      rw [hfrags] at h ⊢
      have hn' : x.frags.length + 1 < q.txList.length := by omega
      have h' : Chained x 0 (x.frags.length + 1) q q' := hsucc ▸ h
      have hlinked : Linked q' (q.txList.take x.nrFrags) := by
        rw [← hsucc]
        exact linked_of_link hn' (by omega) h'.link
      have hlast : lastNextId q' (q.txList.take x.nrFrags) = q'.txList.head?.map indexOf := by
        rw [← hsucc]
        exact h'.lastNextId hn'
      obtain ⟨hsame, hlist, hdesc⟩ := kick_eq k x index { q' with queued := q'.queued + x.nrFrags }
      refine .accepted _ hn ?_ ?_ ?_ ?_ ?_
      · exact hsame.ndesc.trans h.same.ndesc
      · rw [hsame.queued, ← h.same.queued]
      · rw [hlist]
        exact h.txList
      · exact linked_congr (q := q') hdesc hlinked
      · rw [hlist]
        unfold lastNextId at hlast ⊢
        rw [hdesc]
        exact hlast
    | errorUnmap q' m f h hf hbad hgood =>
      obtain ⟨hsame, hlist⟩ := @errorUnmap_eq _ (q.txList.take m) q'
      have hsame' : SameSize q (errorUnmap (q.txList.take m) q') :=
        ⟨hsame.ndesc.trans h.same.ndesc, hsame.queued.trans h.same.queued⟩
      rw [h.txList] at hlist
      rw [List.nil_append]
      by_cases hm : m = 0
      · subst hm
        refine .kept _ _ (Or.inl rfl) hsame' ?_
        simpa using hlist
      · refine .rotated _ m hsame' hlist ?_
        intro hfirst
        obtain ⟨m, rfl⟩ := Nat.exists_eq_succ_of_ne_zero hm
        rcases hfirst hreach with hhead | hrest
        · exact hgood x.head (by simp) hhead
        · exact hrest f (List.mem_of_getElem? (by simpa using hf)) hbad

theorem transmit_cases (k : TxKind) (x : Skb σ) {q : TxQueue σ} (hq : q.Wf)
    (hsize : q.ndesc ≤ 65536) : TransmitCase k x q (transmit k x q) := by
  have hsame : SameSize q q := ⟨rfl, rfl⟩
  unfold transmit
  split_ifs with hcow hzero hkeep hfull hstops
  · exact .kept _ _ (Or.inl rfl) hsame rfl
  · exact .kept _ _ (Or.inl rfl) hsame rfl
  · exact .kept _ _ (Or.inl rfl) hsame rfl
  · exact .kept _ _ (Or.inr rfl) ⟨rfl, rfl⟩ rfl
  · exact .kept _ _ (Or.inl rfl) hsame rfl
  · refine queueSkb_cases k x hq hsize ⟨?_, hzero, ?_, ?_⟩
    · simpa using hcow
    · simpa using hkeep
    · omega

/-! ## What a step keeps -/

/-- The entry in front is the one the last packet names. -/
def Ready (last : Option (BitVec 16)) (q : TxQueue σ) : Prop :=
  ∀ id, last = some id → q.txList.head?.map indexOf = some id

theorem TxQueue.Wf.of_perm {q q' : TxQueue σ} (h : q.Wf) (hsame : SameSize q q')
    (hl : q'.txList.Perm q.txList) : q'.Wf where
  nodup := hl.nodup_iff.mpr h.nodup
  lt := by
    intro e he
    rw [hsame.ndesc]
    exact h.lt e (hl.mem_iff.mp he)
  counted := by
    have hcount : q.queued + q.txList.length = q.ndesc := h.counted
    rw [TxQueue.Counted, hsame.queued, hl.length_eq, hsame.ndesc]
    exact hcount

theorem TxQueue.Wf.of_drop {q q' : TxQueue σ} (h : q.Wf) {n : Nat} (hn : n < q.txList.length)
    (hndesc : q'.ndesc = q.ndesc) (hqueued : q'.queued = q.queued + n)
    (hl : q'.txList = q.txList.drop n) : q'.Wf where
  nodup := by
    rw [hl]
    exact h.nodup.sublist (List.drop_sublist n q.txList)
  lt := by
    intro e he
    rw [hl] at he
    rw [hndesc]
    exact h.lt e (List.mem_of_mem_drop he)
  counted := by
    have hcount : q.queued + q.txList.length = q.ndesc := h.counted
    rw [TxQueue.Counted, hqueued, hl, hndesc, List.length_drop]
    omega

/-- An entry that is not free is one of those that are counted as queued. -/
theorem TxQueue.Wf.queued_pos {q : TxQueue σ} (h : q.Wf) {e : Nat} (he : e < q.ndesc)
    (hbusy : e ∉ q.txList) : 0 < q.queued := by
  have hcount : q.queued + q.txList.length = q.ndesc := h.counted
  have hsub : (e :: q.txList).Subperm (List.range q.ndesc) := by
    refine List.subperm_of_subset (List.nodup_cons.mpr ⟨hbusy, h.nodup⟩) ?_
    intro a ha
    rcases List.mem_cons.mp ha with rfl | ha
    · exact List.mem_range.mpr he
    · exact List.mem_range.mpr (h.lt a ha)
  have hlen := hsub.length_le
  simp only [List.length_cons, List.length_range] at hlen
  omega

theorem TxQueue.Wf.complete {q : TxQueue σ} (h : q.Wf) (e : Nat) : (txComplete e q).Wf := by
  unfold txComplete
  split_ifs with hbusy
  · have hpos := h.queued_pos hbusy.1 hbusy.2
    have hcount : q.queued + q.txList.length = q.ndesc := h.counted
    constructor
    · refine List.nodup_append.mpr ⟨h.nodup, List.nodup_singleton e, ?_⟩
      intro a ha b hb hab
      rw [List.mem_singleton.mp hb] at hab
      exact hbusy.2 (hab ▸ ha)
    · intro a ha
      rcases List.mem_append.mp ha with ha | ha
      · exact h.lt a ha
      · rw [List.mem_singleton.mp ha]
        exact hbusy.1
    · simp only [TxQueue.Counted, List.length_append, List.length_singleton]
      omega
  · exact h

/-- Whatever becomes of a packet, every entry is free or queued. -/
theorem TransmitCase.wf {k : TxKind} {x : Skb σ} {q : TxQueue σ} {r : TxResult × TxQueue σ}
    (h : TransmitCase k x q r) (hq : q.Wf) :
    r.2.Wf ∧ r.2.ndesc = q.ndesc ∧ r.1 ≠ .empty := by
  cases h with
  | kept res q' hres hsame hl =>
    refine ⟨hq.of_perm hsame (hl ▸ List.Perm.refl q.txList), hsame.ndesc, ?_⟩
    rcases hres with rfl | rfl <;> simp
  | rotated q' m hsame hl _ =>
    have hperm : q'.txList.Perm q.txList := by
      have hswap : (q.txList.drop m ++ q.txList.take m).Perm (q.txList.take m ++ q.txList.drop m) :=
        List.perm_append_comm
      rw [List.take_append_drop] at hswap
      rw [hl]
      exact hswap
    exact ⟨hq.of_perm hsame hperm, hsame.ndesc, by simp⟩
  | accepted q' hn hndesc hqueued hl _ _ =>
    exact ⟨hq.of_drop hn hndesc hqueued hl, hndesc, by simp⟩

/-- A completion adds to the back. -/
theorem Ready.complete {last : Option (BitVec 16)} {q : TxQueue σ} (h : Ready last q) (e : Nat) :
    Ready last (txComplete e q) := by
  unfold txComplete
  split_ifs
  · intro id hid
    have hfront := h id hid
    cases hl : q.txList with
    | nil => simp [hl] at hfront
    | cons a l =>
      rw [hl] at hfront
      exact hfront
  · exact h

/-! ## Whole runs -/

/-- The packet of a call, with what is particular to the function. -/
def TxOp.packet : TxOp σ → Option (TxKind × Skb σ)
  | .transmitPacket x => some (transmitPacketKind, x)
  | .wanTx x => some (wanTxKind, x)
  | .fastTx x => some (fastTxKind, x)
  | .complete _ => none

theorem step_packet {op : TxOp σ} {k : TxKind} {x : Skb σ} (h : op.packet = some (k, x))
    (q : TxQueue σ) : q.step op = (some (transmit k x q).1, (transmit k x q).2) := by
  cases op <;> cases h <;> rfl

theorem failsFirst_packet {op : TxOp σ} {k : TxKind} {x : Skb σ} (h : op.packet = some (k, x))
    {q : TxQueue σ} (hf : op.FailsFirst q) : k.Reaches x q → x.FailsFirst := by
  cases op <;> cases h <;> exact hf

theorem step_complete {op : TxOp σ} (h : op.packet = none) :
    ∃ e, op = .complete e := by
  cases op with
  | complete e => exact ⟨e, rfl⟩
  | _ => cases h

/-- Every step keeps the count, and none takes an entry from an empty list, whatever fails. -/
theorem TxQueue.Wf.step {q : TxQueue σ} (hq : q.Wf) (hsize : q.ndesc ≤ 65536) (op : TxOp σ) :
    (q.step op).2.Wf ∧ (q.step op).2.ndesc = q.ndesc ∧ (q.step op).1 ≠ some .empty := by
  cases hpacket : op.packet with
  | none =>
    obtain ⟨e, rfl⟩ := step_complete hpacket
    refine ⟨hq.complete e, ?_, by simp [TxQueue.step]⟩
    simp only [TxQueue.step, txComplete]
    split_ifs <;> rfl
  | some kx =>
    rw [step_packet hpacket]
    obtain ⟨hwf, hndesc, hne⟩ := (transmit_cases kx.1 kx.2 hq hsize).wf hq
    exact ⟨hwf, hndesc, by simpa using hne⟩

/-- A packet that leaves the list as it was. -/
theorem Ready.of_txList {last : Option (BitVec 16)} {q q' : TxQueue σ} (h : Ready last q)
    (hl : q'.txList = q.txList) : Ready last q' := by
  intro id hid
  rw [hl]
  exact h id hid

/-- By induction over the calls and completions. -/
theorem RingRun.of_ready {ops : List (TxOp σ)} {last : Option (BitVec 16)} {q : TxQueue σ}
    (hq : q.Wf) (hsize : q.ndesc ≤ 65536) (hready : Ready last q) (hfirst : RunFailsFirst q ops) :
    RingRun last q ops := by
  induction ops generalizing last q with
  | nil => exact hq.counted
  | cons op ops ih =>
    obtain ⟨hop, hrest⟩ := hfirst
    obtain ⟨hq', hndesc, -⟩ := hq.step hsize op
    have hrun : ∀ last', Ready last' (q.step op).2 → RingRun last' (q.step op).2 ops :=
      fun _ hready' => ih hq' (hndesc ▸ hsize) hready' hrest
    refine ⟨hq.counted, ?_⟩
    cases hpacket : op.packet with
    | none =>
      obtain ⟨e, rfl⟩ := step_complete hpacket
      exact hrun last (hready.complete e)
    | some kx =>
      obtain ⟨k, x⟩ := kx
      have hcase := transmit_cases k x hq hsize
      have hlate := failsFirst_packet hpacket hop
      rw [step_packet hpacket] at hrun ⊢
      generalize transmit k x q = r at hcase hrun
      cases hcase with
      | kept res q' hres _ hl =>
        rcases hres with rfl | rfl
        · exact hrun last (hready.of_txList hl)
        · exact hrun last (hready.of_txList hl)
      | rotated q' m _ _ hnot => exact absurd hlate hnot
      | accepted q' hn _ _ hl hlinked hlast =>
        refine ⟨?_, hlinked, hrun _ ?_⟩
        · intro id hid
          have hpos : x.nrFrags ≠ 0 := by simp [Skb.nrFrags]
          rw [List.head?_take, if_neg hpos]
          exact hready id hid
        · intro id hid
          rw [← hlast]
          exact hid

theorem wf_init (size freeThr : Nat) (entry : Nat → QueueEntry σ) (desc : BitVec 16 → QdmaDesc) :
    (airohaQdmaInitTxQueue size freeThr entry desc).Wf where
  nodup := List.nodup_range
  lt := fun _ he => List.mem_range.mp he
  counted := by simp [TxQueue.Counted, airohaQdmaInitTxQueue]

/-- In every run of a queue in which no packet that gets to the loop has a later fragment that
cannot be mapped, the chain holds. -/
theorem ringRun_linked (size freeThr : Nat) (entry : Nat → QueueEntry σ)
    (desc : BitVec 16 → QdmaDesc) (hsize : size ≤ 65536) (ops : List (TxOp σ))
    (hfirst : RunFailsFirst (airohaQdmaInitTxQueue size freeThr entry desc) ops) :
    RingRun none (airohaQdmaInitTxQueue size freeThr entry desc) ops := by
  refine RingRun.of_ready (wf_init size freeThr entry desc) hsize ?_ hfirst
  intro id hid
  cases hid

end Ring

/-! ## A queue of eight entries -/

/-- A fragment that is mapped, and one that is not. -/
def mapped : Frag := { len := 64#32, addr := some 4096#64 }
def unmapped : Frag := { len := 64#32, addr := none }

/-- A packet with these fragments. -/
def packetOf (head : Frag) (frags : List Frag) : Skb Unit where
  skb := ()
  head := head
  frags := frags
  msg0 := 0#32
  msg1 := 0#32
  msg2 := 0#32
  cowFails := false
  keepAlive := false
  kick := true

/-- A queue of eight entries after `airoha_qdma_init_tx_queue`. -/
def eightEntries : TxQueue Unit :=
  airohaQdmaInitTxQueue 8 4 (fun _ => { skb := none, dmaAddr := 0#64, dmaLen := 0#16 })
    fun _ => {
      len := 0#16
      more := false
      addr := 0#32
      nextId := 0#16
      msg0 := 0#32
      msg1 := 0#32
      msg2 := 0#32 }

/-- A packet of two fragments, one whose first cannot be mapped, and one of three. -/
theorem ringRun_eightEntries : RingRun none eightEntries
    [.transmitPacket (packetOf mapped [mapped]), .fastTx (packetOf unmapped []), .complete 1,
      .wanTx (packetOf mapped [mapped, mapped])] := by
  refine ringRun_linked 8 4 _ _ (by decide) _ ⟨?_, ?_, trivial, ?_, trivial⟩
  · intro _
    exact Or.inr (by simp [packetOf, mapped])
  · intro _
    exact Or.inl rfl
  · intro _
    exact Or.inr (by simp [packetOf, mapped])

/-- A packet, one whose second fragment cannot be mapped, and a packet: entry 1 is named by the
first packet, the last one begins with entry 2. -/
theorem not_ringRun_eightEntries : ¬ RingRun none eightEntries
    [.transmitPacket (packetOf mapped []), .transmitPacket (packetOf mapped [unmapped]),
      .transmitPacket (packetOf mapped [])] := by
  intro h
  have hfollows := h.2.2.2.2.2.1 1#16 rfl
  revert hfollows
  decide

end Airoha.Qdma
