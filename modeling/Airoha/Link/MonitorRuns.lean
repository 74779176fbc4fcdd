/-
Airoha.Link.MonitorRuns — what the link monitor does over a whole run.

The monitor visits its links one after the other: `ethMonitor_eq`. A visit reads
and writes what belongs to its link only, but for the channels of the GDM, which
all the links on it share. So a link goes its way as if it were alone, and each
change of it is acted on once; and the channels of a GDM are where the last
change of any of its links has left them.
-/
import Airoha.Link.Monitor

namespace Airoha.Link

open Airoha.Lib

/-! ## Links -/

/-- A link that is monitored: its device, its entry of the table of speeds, its entry of
`eth_lastlinks`, and its channel. -/
structure Watch where
  dev : GdmDev
  idx : Nat
  itf : Nat
  channel : Nat
  deriving DecidableEq

/-- The link of a serdes port. -/
def serdesLink (soc : SocData) (dev : GdmDev) : Option Watch :=
  (getSerdesInfoFromDev soc dev).bind fun r =>
    (serdesPort r.1).map fun itf => ⟨dev, r.1, itf, r.2⟩

/-- The links of a device. -/
def devLinks (soc : SocData) (dev : GdmDev) : List Watch :=
  if dev.dsa then (List.range maxGswLanPorts).map fun i => ⟨dev, i, i, i + 1⟩
  else (serdesLink soc dev).toList

/-- The links in the order in which they are visited. -/
def links (soc : SocData) (ports : List (List GdmDev)) : List Watch :=
  ports.zipIdx.flatMap fun p =>
    if en7581SupportEthMonitor p.2 then p.1.flatMap (devLinks soc) else []

/-- What is read for a link. -/
def Watch.seen (l : Watch) (o : Obs) : Option Itf :=
  if l.dev.dsa then o.lan l.idx else some (o.dev l.dev)

/-- The last speed of a link. -/
def Watch.speed (l : Watch) (s : Mon) : BitVec 32 :=
  if l.dev.dsa then s.gswSpeed l.idx else s.xsiSpeed l.idx

/-- A new speed of a link. -/
def Watch.setSpeed (l : Watch) (v : BitVec 32) (s : Mon) : Mon :=
  if l.dev.dsa then { s with gswSpeed := Function.update s.gswSpeed l.idx v }
  else { s with xsiSpeed := Function.update s.xsiSpeed l.idx v }

/-- The first half of a visit. -/
def rateStep (l : Watch) (speed : Option (BitVec 32)) (s : Mon) : Mon :=
  match newSpeed (l.speed s) speed with
  | none => s
  | some v => l.setSpeed v (ethLinkRateUpdate l.channel v s)

variable (hw : Nat → Bool)

/-- A visit. -/
def visit (o : Obs) (s : Mon) (l : Watch) : Mon :=
  match l.seen o with
  | none => s
  | some e => linkStatus hw l.dev l.itf l.channel e.link (rateStep l e.speed s)

theorem gswPort_eq {dev : GdmDev} (h : dev.dsa = true) (o : Obs) (s : Mon) (i : Nat) :
    gswPort hw dev o s i = visit hw o s ⟨dev, i, i, i + 1⟩ := by
  unfold gswPort visit
  simp only [Watch.seen, h, if_true]
  cases o.lan i with
  | none => rfl
  | some e =>
    cases hs : newSpeed (s.gswSpeed i) e.speed <;>
      simp only [rateStep, Watch.speed, Watch.setSpeed, h, hs, if_true]

theorem serdesInfo_channel {soc : SocData} {dev : GdmDev} {r : Nat × Nat}
    (h : getSerdesInfoFromDev soc dev = some r) : r.2 = soc.chnl r.1 := by
  obtain ⟨i, -, rfl⟩ := Option.map_eq_some_iff.1 h
  rfl

theorem serdesHandler_eq {soc : SocData} {dev : GdmDev} (h : dev.dsa = false) (o : Obs) (s : Mon) :
    serdesLinkStatusHandler hw soc dev o s =
      (serdesLink soc dev).toList.foldl (visit hw o) s := by
  unfold serdesLinkStatusHandler serdesLink
  cases hi : getSerdesInfoFromDev soc dev with
  | none => rfl
  | some r =>
    obtain ⟨idx, channel⟩ := r
    obtain rfl : channel = soc.chnl idx := serdesInfo_channel hi
    simp only [Option.bind_some]
    cases serdesPort idx with
    | none => rfl
    | some itf =>
      cases hs : newSpeed (s.xsiSpeed idx) (o.dev dev).speed <;>
        simp only [Option.map_some, Option.toList_some, List.foldl_cons, List.foldl_nil, visit,
          Watch.seen, h, hs, Bool.false_eq_true, if_false, rateStep, Watch.speed, Watch.setSpeed]

theorem monitorDev_eq (soc : SocData) (o : Obs) (s : Mon) (dev : GdmDev) :
    monitorDev hw soc o s dev = (devLinks soc dev).foldl (visit hw o) s := by
  unfold monitorDev devLinks
  cases h : dev.dsa with
  | true =>
    simp only [if_true]
    rw [gswProcess, List.foldl_map]
    congr 1
    funext s i
    exact gswPort_eq hw h o s i
  | false => exact serdesHandler_eq hw h o s

/-- A run of the monitor visits the links in their order. -/
theorem ethMonitor_eq (soc : SocData) (ports : List (List GdmDev)) (s : Mon) (o : Obs) :
    ethMonitor hw soc ports s o = (links soc ports).foldl (visit hw o) s := by
  unfold ethMonitor links
  rw [List.foldl_flatMap]
  congr 1
  funext s p
  split
  · rw [List.foldl_flatMap]
    congr 1
    funext s dev
    exact monitorDev_eq hw soc o s dev
  · rfl

/-! ## A change of a link -/

/-- What the release of GDM4 leaves: the registers it does not write, and everything else but the
number of polls. -/
structure Quiet (s s' : Mon) : Prop where
  fe : ∀ a, a ≠ regGdm4ChnRls → a ≠ feResetGlo → s'.fe a = s.fe a
  rest : s' = { s with fe := s'.fe, polls := s'.polls }

variable {hw}

theorem Quiet.trans {s s' s'' : Mon} (h : Quiet s s') (h' : Quiet s' s'') : Quiet s s'' where
  fe a h1 h2 := (h'.fe a h1 h2).trans (h.fe a h1 h2)
  rest := by rw [h'.rest, h.rest]

theorem rmw_of_ne {offset a : Nat} {msk val : BitVec 32} {r : Regs} (h : a ≠ offset) :
    rmw offset msk val r a = r a := Function.update_of_ne h _ _

theorem quiet_rls (s : Mon) (id : Nat) : Quiet s (feGdmRls hw id s).2 := by
  unfold feGdmRls
  split
  · exact ⟨fun _ _ _ => rfl, rfl⟩
  · refine ⟨fun a h1 _ => ?_, rfl⟩
    simp only [readPollTimeout]
    rw [rmw_of_ne h1, rmw_of_ne h1]

theorem quiet_mbi (s : Mon) (shift : Nat) : Quiet s (mbiTerminate hw shift s) := by
  rw [mbiTerminate]
  cases h : hw s.polls with
  | true =>
    rw [if_neg (by simp [readPollTimeout, h])]
    exact ⟨fun _ _ _ => rfl, rfl⟩
  | false =>
    rw [if_pos (by simp [readPollTimeout, h])]
    refine ⟨fun a _ h2 => ?_, rfl⟩
    simp only [readPollTimeout]
    rw [rmw_of_ne h2, rmw_of_ne h2]

/-- `airoha_eth_monitor_link_up_protection`, at once. -/
theorem linkUp_eq (dev : GdmDev) (itf channel : Nat) (s : Mon) :
    linkUpProtection dev itf channel s =
      { s with
        fe := (gdmaStartTxRxChannel dev s).fe
        xfi := if dev.id ≠ 1 then (xsiMacStart dev s).xfi else s.xfi
        qdma := (qdmaStartChannel dev channel s).qdma
        calls := s.calls ++ [.up itf] } := by
  unfold linkUpProtection
  by_cases h : dev.id ≠ 1
  · simp only [if_pos h]
    rfl
  · simp only [if_neg h]
    rfl

/-- `airoha_eth_monitor_link_down_protection` of a port of the switch. -/
theorem linkDown_gdm1 {dev : GdmDev} (h : dev.id = 1) (itf channel : Nat) (s : Mon) :
    linkDownProtection hw dev itf channel s =
      { s with calls := s.calls ++
          [.flows itf, .clean (airohaGetFePort dev) channel, .down itf none] } := by
  unfold linkDownProtection
  simp [h, Mon.call]

/-- What it does for a serdes port. -/
structure Downs (dev : GdmDev) (itf channel : Nat) (s s' : Mon) : Prop where
  fe : ∀ a, a ≠ regGdm4ChnRls → a ≠ feResetGlo → s'.fe a = (gdmaStopTxRxChannel dev s).fe a
  qdma : s'.qdma = (qdmaStopChannel dev channel s).qdma
  xfi : s'.xfi = (xsiMacReset dev (xsiMacStop dev s)).xfi
  calls : ∃ r, s'.calls = s.calls ++
    [.flows itf, .clean (airohaGetFePort dev) channel, .down itf r]
  rest : s' = { s with
    fe := s'.fe, qdma := s'.qdma, xfi := s'.xfi, polls := s'.polls, calls := s'.calls }

variable (hw) in
theorem linkDown_serdes {dev : GdmDev} (h : dev.id ≠ 1) (itf channel : Nat) (s : Mon) :
    Downs dev itf channel s (linkDownProtection hw dev itf channel s) := by
  unfold linkDownProtection
  simp only [if_pos h]
  set s1 := (gdmaStopTxRxChannel dev (xsiMacStop dev (qdmaStopChannel dev channel
    (s.call (.flows itf))))).call (.clean (airohaGetFePort dev) channel) with hs1
  have hq : Quiet s1 (ethMbiHangUnlockByArbitReset hw (feGdmRls hw dev.id s1).2) :=
    (quiet_rls s1 dev.id).trans ((quiet_mbi _ 10).trans (quiet_mbi _ 8))
  generalize feGdmRls hw dev.id s1 = r at hq
  generalize ethMbiHangUnlockByArbitReset hw r.2 = s2 at hq
  have hrest := hq.rest
  refine ⟨fun a h1 h2 => ?_, ?_, ?_, ?_, ?_⟩
  · exact hq.fe a h1 h2
  · rw [hrest]
    rfl
  · rw [hrest]
    rfl
  · refine ⟨some (decide (0 ≤ r.1)), ?_⟩
    rw [hrest]
    simp [Mon.call, xsiMacReset, onXfi, hs1, gdmaStopTxRxChannel, xsiMacStop, qdmaStopChannel]
  · rw [hrest]
    rfl

/-- What is called on a change of a link, and on none. -/
inductive Acts (dev : GdmDev) (itf channel : Nat) : Bool → Bool → List Call → Prop where
  | same (b : Bool) : Acts dev itf channel b b []
  | up : Acts dev itf channel false true [.up itf]
  | down (r : Option Bool) : Acts dev itf channel true false
      [.flows itf, .clean (airohaGetFePort dev) channel, .down itf r]

/-- What `linkStatus` does to what is not a register. -/
structure Status (dev : GdmDev) (itf channel : Nat) (link : Bool) (s s' : Mon) : Prop where
  calls : ∃ cs, s'.calls = s.calls ++ cs ∧ Acts dev itf channel (s.lastlinks itf) link cs
  last : s'.lastlinks = Function.update s.lastlinks itf link
  gsw : s'.gswSpeed = s.gswSpeed
  xsi : s'.xsiSpeed = s.xsiSpeed

variable (hw) in
theorem linkStatus_status (dev : GdmDev) (itf channel : Nat) (link : Bool) (s : Mon) :
    Status dev itf channel link s (linkStatus hw dev itf channel link s) := by
  unfold linkStatus
  cases hl : s.lastlinks itf <;> cases link
  · simp only [Bool.not_false, Bool.and_false, Bool.false_eq_true, Bool.and_true, if_false]
    refine ⟨⟨[], by simp, by rw [hl]; exact .same false⟩, ?_, rfl, rfl⟩
    rw [← hl, Function.update_eq_self]
  · simp only [Bool.not_false, Bool.and_true, if_true, linkUp_eq]
    exact ⟨⟨[.up itf], rfl, hl ▸ .up⟩, rfl, rfl, rfl⟩
  · simp only [Bool.not_true, Bool.and_false, Bool.false_eq_true, if_false, Bool.not_false,
      Bool.and_true, if_true]
    by_cases h : dev.id = 1
    · rw [linkDown_gdm1 h]
      exact ⟨⟨_, rfl, hl ▸ .down none⟩, rfl, rfl, rfl⟩
    · have hd := linkDown_serdes hw h itf channel s
      generalize linkDownProtection hw dev itf channel s = s1 at hd
      obtain ⟨r, hr⟩ := hd.calls
      have hrest := hd.rest
      refine ⟨⟨_, hr, hl ▸ .down r⟩, ?_, ?_, ?_⟩ <;> rw [hrest]
  · simp only [Bool.not_true, Bool.false_and, Bool.false_eq_true, if_false, Bool.and_false]
    refine ⟨⟨[], by simp, by rw [hl]; exact .same true⟩, ?_, rfl, rfl⟩
    rw [← hl, Function.update_eq_self]

/-! ## A visit -/

/-- The change of a link, as a call shows it. -/
def Call.move (itf : Nat) : Call → Option Bool
  | .up i => if i = itf then some true else none
  | .flows i => if i = itf then some false else none
  | _ => none

/-- The rate that a call sets for a channel. -/
def Call.rateOf (channel : Nat) : Call → Option (BitVec 32)
  | .rate c v => if c = channel then some v else none
  | _ => none

/-- The speed that is read, if it is known. -/
def Itf.known (e : Itf) : Option (BitVec 32) := e.speed.filter (· != speedUnknown)

theorem newSpeed_eq (last : BitVec 32) (e : Itf) :
    newSpeed last e.speed = e.known.filter (· != last) := by
  rw [newSpeed, Itf.known]
  cases e.speed with
  | none => rfl
  | some v =>
    cases h1 : v != speedUnknown <;> cases h2 : v != last <;> simp [Option.filter, h1, h2]

/-- The calls of a visit. -/
structure Visit (l : Watch) (e : Itf) (s s' : Mon) : Prop where
  calls : ∃ cs, s'.calls = s.calls ++ (e.known.filter (· != l.speed s)).toList.map
      (fun v => .rate (l.channel % 256) (v * 1000#32)) ++ cs ∧
    Acts l.dev l.itf l.channel (s.lastlinks l.itf) e.link cs
  last : s'.lastlinks = Function.update s.lastlinks l.itf e.link
  speed : l.speed s' = (e.known.filter (· != l.speed s)).getD (l.speed s)
  others : ∀ l' : Watch, (l'.dev.dsa, l'.idx) ≠ (l.dev.dsa, l.idx) → l'.speed s' = l'.speed s

theorem setSpeed_speed (l : Watch) (v : BitVec 32) (s : Mon) : l.speed (l.setSpeed v s) = v := by
  unfold Watch.speed Watch.setSpeed
  cases l.dev.dsa <;> simp

theorem setSpeed_speed_of_ne {l l' : Watch} (h : (l'.dev.dsa, l'.idx) ≠ (l.dev.dsa, l.idx))
    (v : BitVec 32) (s : Mon) : l'.speed (l.setSpeed v s) = l'.speed s := by
  unfold Watch.speed Watch.setSpeed
  cases hd : l.dev.dsa <;> cases hd' : l'.dev.dsa <;> simp only [hd, hd', ne_eq, Prod.mk.injEq,
    true_and, Bool.false_eq_true, if_false, if_true] at h ⊢
  · rw [Function.update_of_ne h]
  · rw [Function.update_of_ne h]

theorem setSpeed_calls (l : Watch) (v : BitVec 32) (s : Mon) :
    (l.setSpeed v s).calls = s.calls ∧ (l.setSpeed v s).lastlinks = s.lastlinks := by
  unfold Watch.setSpeed
  cases l.dev.dsa <;> exact ⟨rfl, rfl⟩

theorem speed_congr {s s' : Mon} (hg : s'.gswSpeed = s.gswSpeed) (hx : s'.xsiSpeed = s.xsiSpeed)
    (l : Watch) : l.speed s' = l.speed s := by
  rw [Watch.speed, Watch.speed, hg, hx]

variable (hw) in
theorem visit_spec {o : Obs} {l : Watch} {e : Itf} (h : l.seen o = some e) (s : Mon) :
    Visit l e s (visit hw o s l) := by
  unfold visit
  simp only [h]
  rw [rateStep, newSpeed_eq]
  cases hn : e.known.filter (· != l.speed s) with
  | none =>
    obtain ⟨⟨cs, hcs, hacts⟩, hlast, hg, hx⟩ :=
      linkStatus_status hw l.dev l.itf l.channel e.link s
    refine ⟨⟨cs, ?_, hacts⟩, hlast, ?_, fun l' _ => speed_congr hg hx l'⟩
    · simpa [hn] using hcs
    · rw [hn, Option.getD_none, speed_congr hg hx]
  | some v =>
    obtain ⟨⟨cs, hcs, hacts⟩, hlast, hg, hx⟩ := linkStatus_status hw l.dev l.itf l.channel
      e.link (l.setSpeed v (ethLinkRateUpdate l.channel v s))
    obtain ⟨hc, hl⟩ := setSpeed_calls l v (ethLinkRateUpdate l.channel v s)
    rw [hc] at hcs
    rw [hl] at hlast hacts
    refine ⟨⟨cs, ?_, hacts⟩, hlast, ?_, fun l' hne => ?_⟩
    · rw [hcs, hn]
      rfl
    · rw [hn, Option.getD_some]
      exact (speed_congr hg hx l).trans (setSpeed_speed l v _)
    · exact (speed_congr hg hx l').trans (setSpeed_speed_of_ne hne v _)

/-! ## A link by itself -/

/-- The part of the state that is a link's own. -/
structure LinkView where
  last : Bool
  moves : List Bool
  cleans : Nat
  speed : BitVec 32
  rates : List (BitVec 32)

/-- The call that deletes the entries to a link. -/
def Watch.clean (l : Watch) : Call := .clean (airohaGetFePort l.dev) l.channel

def Watch.view (l : Watch) (s : Mon) : LinkView where
  last := s.lastlinks l.itf
  moves := s.calls.filterMap (Call.move l.itf)
  cleans := s.calls.count l.clean
  speed := l.speed s
  rates := s.calls.filterMap (Call.rateOf (l.channel % 256))

/-- What a link makes of a visit. -/
def LinkView.next (v : LinkView) : Option Itf → LinkView
  | none => v
  | some e =>
    { last := e.link
      moves := v.moves ++ if v.last = e.link then [] else [e.link]
      cleans := v.cleans + if v.last = true ∧ e.link = false then 1 else 0
      speed := (e.known.filter (· != v.speed)).getD v.speed
      rates := v.rates ++ (e.known.filter (· != v.speed)).toList.map (· * 1000#32) }

/-- Links that have nothing in common but their GDM. -/
structure Apart (ls : List Watch) : Prop where
  itf : (ls.map Watch.itf).Nodup
  channel : (ls.map fun l => l.channel % 256).Nodup
  idx : (ls.map fun l => (l.dev.dsa, l.idx)).Nodup

theorem ne_of_nodup_map {α β : Type} {f : α → β} {ls : List α} (h : (ls.map f).Nodup) {a b : α}
    (ha : a ∈ ls) (hb : b ∈ ls) (hne : b ≠ a) : f b ≠ f a := fun he =>
  hne (List.inj_on_of_nodup_map h hb ha he)

theorem Acts.moves {dev : GdmDev} {itf channel : Nat} {a b : Bool} {cs : List Call}
    (h : Acts dev itf channel a b cs) :
    cs.filterMap (Call.move itf) = (if a = b then [] else [b]) ∧
      cs.count (.clean (airohaGetFePort dev) channel) =
        (if a = true ∧ b = false then 1 else 0) ∧
      ∀ c, cs.filterMap (Call.rateOf c) = [] := by
  cases h with
  | same => cases a <;> simp
  | up => simp [Call.move, Call.rateOf]
  | down r => simp [Call.move, Call.rateOf]

theorem Acts.others {dev : GdmDev} {itf channel : Nat} {a b : Bool} {cs : List Call}
    (h : Acts dev itf channel a b cs) {itf' channel' : Nat} (fport' : Nat) (hi : itf' ≠ itf)
    (hc : channel' ≠ channel) :
    cs.filterMap (Call.move itf') = [] ∧ cs.count (.clean fport' channel') = 0 := by
  cases h with
  | same => exact ⟨rfl, rfl⟩
  | up => simp [Call.move, hi.symm]
  | down r => simp [Call.move, hi.symm, hc.symm]

/-- A rate is not a change of a link, and deletes nothing. -/
theorem rates_calls (vs : List (BitVec 32)) (ch : Nat) :
    (∀ itf, (vs.map (Call.rate ch)).filterMap (Call.move itf) = []) ∧
      (∀ fport c, (vs.map (Call.rate ch)).count (.clean fport c) = 0) ∧
      ∀ c, (vs.map (Call.rate ch)).filterMap (Call.rateOf c) = if ch = c then vs else [] := by
  refine ⟨fun itf => ?_, fun fport c => ?_, fun c => ?_⟩
  · simp [List.filterMap_map, Call.move, Function.comp_def]
  · simp [List.count_eq_zero]
  · by_cases h : ch = c
    · simp [List.filterMap_map, Call.rateOf, Function.comp_def, h]
    · simp [List.filterMap_map, Call.rateOf, Function.comp_def, h]

theorem visit_own (o : Obs) (l : Watch) (s : Mon) :
    l.view (visit hw o s l) = (l.view s).next (l.seen o) := by
  cases h : l.seen o with
  | none =>
    unfold visit
    simp only [h]
    rfl
  | some e =>
    obtain ⟨⟨cs, hcs, hacts⟩, hlast, hspeed, -⟩ := visit_spec hw h s
    obtain ⟨hm, hc, hr⟩ := hacts.moves
    obtain ⟨hm', hc', hr'⟩ := rates_calls
      ((e.known.filter (· != l.speed s)).toList.map (· * 1000#32)) (l.channel % 256)
    simp only [List.map_map] at hm' hc' hr'
    have hcomp : (fun v : BitVec 32 => Call.rate (l.channel % 256) (v * 1000#32)) =
        Call.rate (l.channel % 256) ∘ (· * 1000#32) := rfl
    rw [hcomp] at hcs
    simp only [Watch.view, Watch.clean, LinkView.next, hlast, hspeed, hcs, Function.update_self,
      List.filterMap_append, List.count_append, hm', hc', hc, hr', hm, hr, if_true,
      List.append_nil, Nat.add_zero]
    rfl

theorem visit_other (o : Obs) {l l' : Watch} (s : Mon) (hi : l'.itf ≠ l.itf)
    (hc : l'.channel % 256 ≠ l.channel % 256)
    (hx : (l'.dev.dsa, l'.idx) ≠ (l.dev.dsa, l.idx)) : l'.view (visit hw o s l) = l'.view s := by
  cases h : l.seen o with
  | none =>
    unfold visit
    simp only [h]
  | some e =>
    obtain ⟨⟨cs, hcs, hacts⟩, hlast, -, hspeed⟩ := visit_spec hw h s
    have hch : l'.channel ≠ l.channel := fun he => hc (by rw [he])
    obtain ⟨hm, hcl⟩ := hacts.others (airohaGetFePort l'.dev) hi hch
    obtain ⟨hm', hc', hr'⟩ := rates_calls
      ((e.known.filter (· != l.speed s)).toList.map (· * 1000#32)) (l.channel % 256)
    simp only [List.map_map] at hm' hc' hr'
    have hcomp : (fun v : BitVec 32 => Call.rate (l.channel % 256) (v * 1000#32)) =
        Call.rate (l.channel % 256) ∘ (· * 1000#32) := rfl
    rw [hcomp] at hcs
    simp only [Watch.view, hlast, hspeed l' hx, hcs, Function.update_of_ne hi,
      List.filterMap_append, List.count_append, hm', hc', hr', hm, hacts.moves.2.2, Watch.clean,
      hcl, hc.symm, if_false, List.append_nil, Nat.add_zero]

variable {soc : SocData} {ports : List (List GdmDev)}

/-- In a run of the monitor each link goes its own way. -/
theorem ethMonitor_view (ha : Apart (links soc ports)) {l : Watch} (hl : l ∈ links soc ports)
    (s : Mon) (o : Obs) : l.view (ethMonitor hw soc ports s o) = (l.view s).next (l.seen o) := by
  rw [ethMonitor_eq]
  refine foldl_view l.view (fun v => v.next (l.seen o)) (List.Nodup.of_map _ ha.itf) hl
    (fun s => visit_own o l s) (fun s b hb hne => ?_) s
  exact visit_other o s (ne_of_nodup_map ha.itf hl hb hne).symm
    (ne_of_nodup_map ha.channel hl hb hne).symm (ne_of_nodup_map ha.idx hl hb hne).symm

/-- The monitor, as often as it is run. -/
def monitorRun (hw : Nat → Bool) (soc : SocData) (ports : List (List GdmDev)) (s : Mon)
    (os : List Obs) : Mon := os.foldl (ethMonitor hw soc ports) s

/-- What a link looks like, where it is seen. -/
def Watch.linksSeen (l : Watch) (os : List Obs) : List Bool :=
  os.filterMap fun o => (l.seen o).map Itf.link

/-- The speeds that are read of a link, and known. -/
def Watch.speedsSeen (l : Watch) (os : List Obs) : List (BitVec 32) :=
  os.filterMap fun o => (l.seen o).bind Itf.known

theorem linksSeen_cons (l : Watch) (o : Obs) (os : List Obs) :
    l.linksSeen (o :: os) = ((l.seen o).map Itf.link).toList ++ l.linksSeen os := by
  rw [Watch.linksSeen, List.filterMap_cons]
  cases (l.seen o).map Itf.link <;> rfl

theorem speedsSeen_cons (l : Watch) (o : Obs) (os : List Obs) :
    l.speedsSeen (o :: os) = ((l.seen o).bind Itf.known).toList ++ l.speedsSeen os := by
  rw [Watch.speedsSeen, List.filterMap_cons]
  cases (l.seen o).bind Itf.known <;> rfl

theorem changes_filter (a : BitVec 32) (k : Option (BitVec 32)) (l : List (BitVec 32)) :
    changes a (k.toList ++ l) = (k.filter (· != a)).toList ++ changes ((k.filter (· != a)).getD a) l
    := by
  cases k with
  | none => rfl
  | some v =>
    by_cases h : v = a
    · rw [h]
      simp [Option.filter, changes_cons_self]
    · have h' : a ≠ v := fun he => h he.symm
      simp [Option.filter, h, changes_cons_of_ne h']

variable (hw) in
theorem monitorRun_view (ha : Apart (links soc ports)) {l : Watch} (hl : l ∈ links soc ports)
    (os : List Obs) (s : Mon) :
    (l.view (monitorRun hw soc ports s os)).moves =
        (l.view s).moves ++ changes (l.view s).last (l.linksSeen os) ∧
      (l.view (monitorRun hw soc ports s os)).cleans = (l.view s).cleans +
        (changes (l.view s).last (l.linksSeen os)).count false ∧
      (l.view (monitorRun hw soc ports s os)).rates = (l.view s).rates ++
        (changes (l.view s).speed (l.speedsSeen os)).map (· * 1000#32) := by
  induction os generalizing s with
  | nil =>
    refine ⟨?_, ?_, ?_⟩
    · exact (List.append_nil _).symm
    · rfl
    · exact (List.append_nil _).symm
  | cons o os ih =>
    obtain ⟨h1, h2, h3⟩ := ih (ethMonitor hw soc ports s o)
    rw [ethMonitor_view ha hl] at h1 h2 h3
    have hrun : monitorRun hw soc ports s (o :: os) =
        monitorRun hw soc ports (ethMonitor hw soc ports s o) os := rfl
    rw [hrun, h1, h2, h3]
    rw [linksSeen_cons, speedsSeen_cons]
    cases l.seen o with
    | none => exact ⟨rfl, rfl, rfl⟩
    | some e =>
      simp only [LinkView.next, Option.map_some, Option.toList_some, List.singleton_append,
        Option.bind_some, changes_cons, changes_filter, List.append_assoc, List.map_append,
        List.count_append, Nat.add_assoc, true_and, and_true]
      congr 2
      cases (l.view s).last <;> cases e.link <;> rfl

/-! ## The EN7581 -/

/-- `lan1` to `lan4` behind GDM1, and the two serdes ports of GDM4. -/
structure Board where
  lan : GdmDev
  eth : GdmDev
  usb : GdmDev
  lan_dsa : lan.dsa = true
  lan_id : lan.id = 1
  eth_serdes : eth.dsa = false ∧ eth.id = 4 ∧ eth.nbq = 0
  usb_serdes : usb.dsa = false ∧ usb.id = 4 ∧ usb.nbq = 1
  xfi_apart : ∀ x, eth.xfiMac = some x → usb.xfiMac ≠ some x

/-- GDM2 and GDM3 are not monitored, whatever is on them. -/
def Board.gdms (b : Board) (gdm2 gdm3 : List GdmDev) : List (List GdmDev) :=
  [[b.lan], gdm2, gdm3, [b.eth, b.usb]]

theorem Board.links_eq (b : Board) (gdm2 gdm3 : List GdmDev) :
    links en7581SocData (b.gdms gdm2 gdm3) =
      [⟨b.lan, 0, 0, 1⟩, ⟨b.lan, 1, 1, 2⟩, ⟨b.lan, 2, 2, 3⟩, ⟨b.lan, 3, 3, 4⟩,
        ⟨b.eth, 4, 6, 13⟩, ⟨b.usb, 2, 8, 12⟩] := by
  obtain ⟨he1, he2, he3⟩ := b.eth_serdes
  obtain ⟨hu1, hu2, hu3⟩ := b.usb_serdes
  have heth : serdesLink en7581SocData b.eth = some ⟨b.eth, 4, 6, 13⟩ := by
    rw [serdesLink, getSerdesInfoFromDev, he2, he3]
    rfl
  have husb : serdesLink en7581SocData b.usb = some ⟨b.usb, 2, 8, 12⟩ := by
    rw [serdesLink, getSerdesInfoFromDev, hu2, hu3]
    rfl
  simp [links, Board.gdms, List.zipIdx, en7581SupportEthMonitor, devLinks, b.lan_dsa, he1, hu1,
    heth, husb, maxGswLanPorts, List.range_succ]

/-- Its links have nothing in common but GDM4. -/
theorem Board.apart (b : Board) (gdm2 gdm3 : List GdmDev) :
    Apart (links en7581SocData (b.gdms gdm2 gdm3)) := by
  rw [b.links_eq]
  exact
    { itf := by simp
      channel := by simp
      idx := by simp [b.lan_dsa, b.eth_serdes.1, b.usb_serdes.1] }

def probeBoard : Board where
  lan := ⟨1, 0, true, 0, none⟩
  eth := ⟨4, 0, false, 0, some 0⟩
  usb := ⟨4, 1, false, 0, some 1⟩
  lan_dsa := rfl
  lan_id := rfl
  eth_serdes := ⟨rfl, rfl, rfl⟩
  usb_serdes := ⟨rfl, rfl, rfl⟩
  xfi_apart := by
    intro x h
    cases h
    decide

/-- Both serdes ports are as they are seen here: `eth` and `usb` up, and then `usb` down. -/
def probeObs : List Obs :=
  [⟨fun _ => none, fun _ => ⟨some 10000#32, true⟩⟩,
    ⟨fun _ => none, fun dev => ⟨none, dev.nbq == 0⟩⟩]

/-! ## Every run -/

/-- In every run, whatever is read: the changes of a link as it is seen are acted on once each and
in their order, each time that it goes down the entries to it are deleted once, and the rates set
for its channel are those of the speeds that differ from the last one known. -/
theorem acted_once (hw : Nat → Bool) (ha : Apart (links soc ports)) {l : Watch}
    (hl : l ∈ links soc ports) (fe : Regs) (qdma xfi : Nat → Regs) (os : List Obs) :
    (monitorRun hw soc ports (monInit fe qdma xfi) os).calls.filterMap (Call.move l.itf) =
        changes false (l.linksSeen os) ∧
      (monitorRun hw soc ports (monInit fe qdma xfi) os).calls.count l.clean =
        (changes false (l.linksSeen os)).count false ∧
      (monitorRun hw soc ports (monInit fe qdma xfi) os).calls.filterMap
          (Call.rateOf (l.channel % 256)) =
        (changes 0#32 (l.speedsSeen os)).map (· * 1000#32) := by
  have hspeed : (l.view (monInit fe qdma xfi)).speed = 0#32 := by
    show l.speed (monInit fe qdma xfi) = 0#32
    rw [Watch.speed]
    split <;> rfl
  obtain ⟨h1, h2, h3⟩ := monitorRun_view hw ha hl os (monInit fe qdma xfi)
  refine ⟨h1, ?_, ?_⟩
  · exact h2.trans (Nat.zero_add _)
  · rw [hspeed] at h3
    exact h3

theorem acted_once_usb :
    (monitorRun (fun _ => true) en7581SocData (probeBoard.gdms [] [])
        (monInit (fun _ => 0) (fun _ _ => 0) fun _ _ => 0) probeObs).calls.filterMap
          (Call.move 8) = changes false (Watch.linksSeen ⟨probeBoard.usb, 2, 8, 12⟩ probeObs) ∧
      (monitorRun (fun _ => true) en7581SocData (probeBoard.gdms [] [])
        (monInit (fun _ => 0) (fun _ _ => 0) fun _ _ => 0) probeObs).calls.count
          (Watch.clean ⟨probeBoard.usb, 2, 8, 12⟩) =
            (changes false (Watch.linksSeen ⟨probeBoard.usb, 2, 8, 12⟩ probeObs)).count false ∧
      (monitorRun (fun _ => true) en7581SocData (probeBoard.gdms [] [])
        (monInit (fun _ => 0) (fun _ _ => 0) fun _ _ => 0) probeObs).calls.filterMap
          (Call.rateOf (12 % 256)) =
            (changes 0#32 (Watch.speedsSeen ⟨probeBoard.usb, 2, 8, 12⟩ probeObs)).map
              (· * 1000#32) :=
  acted_once (fun _ => true) (probeBoard.apart [] []) (l := ⟨probeBoard.usb, 2, 8, 12⟩)
    (by rw [probeBoard.links_eq]; simp) (fun _ => 0) (fun _ _ => 0) (fun _ _ => 0) probeObs

end Airoha.Link
