/-
Airoha.Qdma.LroSkbRight — when the skb is a super-segment.

A buffer that holds an IP header and TCP within the length makes one in all
respects but the cut: the payload falls into as many pieces as segments were
aggregated only if there is enough of it. A buffer that does not makes none, and
no buffer is read or written at or beyond the length.
-/
import Airoha.Qdma.LroSkb

namespace Airoha.Qdma.LroSkb

open Airoha.Lib

/-! ## The cut -/

theorem pieces_eq (n : Nat) {g : Nat} (hg : 0 < g) : pieces n g = (n + g - 1) / g := by
  induction n using Nat.strong_induction_on with
  | h n ih =>
    rw [pieces]
    by_cases hn : 0 < n
    · rw [dif_pos ⟨hn, hg⟩, ih (n - g) (by omega)]
      rcases Nat.lt_or_ge n g with hlt | hge
      · have h1 : (n - g + g - 1) / g = 0 := Nat.div_eq_of_lt (by omega)
        have h2 : (n + g - 1) / g = 1 := Nat.div_eq_of_lt_le (by omega) (by omega)
        rw [h1, h2]
      · have h1 : n + g - 1 = n - g + g - 1 + g := by omega
        rw [h1, Nat.add_div_right _ hg]
    · rw [dif_neg (fun h => hn h.1)]
      exact (Nat.div_eq_of_lt (by omega)).symm

/-- The quotient rounded up cuts `n` bytes into `a` pieces just when they fill them. -/
theorem fills_iff {n a : Nat} (ha : 1 < a) :
    (0 < (n + a - 1) / a ∧ pieces n ((n + a - 1) / a) = a) ↔ Fills n a := by
  unfold Fills
  rcases Nat.eq_zero_or_pos n with rfl | hn
  · have h : (0 + a - 1) / a = 0 := Nat.div_eq_of_lt (by omega)
    rw [h]
    simp
  · have hpos : 0 < (n + a - 1) / a := Nat.div_pos (by omega) (by omega)
    rw [pieces_eq n hpos]
    simp only [hpos, hn, true_and]
    have hsplit := Nat.div_add_mod n a
    have hmod := Nat.mod_lt n (show 0 < a by omega)
    generalize n / a = k at hsplit ⊢
    generalize n % a = r at hsplit hmod ⊢
    rcases Nat.eq_zero_or_pos r with rfl | hr
    · have hquot : (n + a - 1) / a = k := by
        refine Nat.div_eq_of_lt_le ?_ ?_
        · rw [Nat.mul_comm]
          omega
        · rw [Nat.succ_mul, Nat.mul_comm]
          omega
      have hk : 0 < k := by rwa [hquot] at hpos
      refine iff_of_true ?_ (Or.inl rfl)
      rw [hquot]
      refine Nat.div_eq_of_lt_le (by omega) ?_
      rw [Nat.succ_mul]
      omega
    · have hquot : (n + a - 1) / a = k + 1 := by
        refine Nat.div_eq_of_lt_le ?_ ?_
        · rw [Nat.succ_mul, Nat.mul_comm]
          omega
        · rw [Nat.succ_mul, Nat.succ_mul, Nat.mul_comm]
          omega
      have hmul : a * (k + 1) = a * k + a := Nat.mul_succ a k
      have hnext : (a + 1) * (k + 1) = a * k + a + k + 1 := by ring
      rw [hquot, Nat.div_eq_iff (show 0 < k + 1 by omega)]
      omega

/-! ## Numbers -/

theorem u32_of_lt {n : Nat} (h : n < 2 ^ 32) : u32 n = n := Nat.mod_eq_of_lt h

theorem sub32_of_le {a b : Nat} (hb : b ≤ a) (ha : a < 2 ^ 32) : sub32 a b = a - b := by
  unfold sub32
  omega

variable (desc : QdmaDesc)

theorem len_lt : desc.len < 2 ^ 16 := toNat_fieldGet_lt 0 16 desc.ctrl

theorem l2Len_lt : desc.l2Len < 2 ^ 16 := BitVec.isLt _

theorem aggCount_lt : desc.aggCount < 2 ^ 8 := toNat_fieldGet_lt 24 8 desc.msg2

theorem ihl_lt (b : BitVec 8) : ihl b < 2 ^ 4 := toNat_fieldGet_lt 0 4 b

theorem doff_lt (b : BitVec 8) : doff b < 2 ^ 4 := toNat_fieldGet_lt 4 4 b

/-! ## The IP header -/

section Headers

variable {len l2 : Nat} {m : Mem}

/-- The IPv4 header without a checksum. -/
def ipv4Bare (len l2 : Nat) (m : Mem) : Mem :=
  put16 (put16 m (l2 + 2) (BitVec.ofNat 16 (len - l2))) (l2 + 10) 0#16

/-- The IPv4 header as it is left. -/
def ipv4Done (len l2 : Nat) (m : Mem) : Mem :=
  put16 (ipv4Bare len l2 m) (l2 + 10) (csumFold (wordSum (ipv4Bare len l2 m) l2 (2 * ihl (m l2))))

/-- The IPv6 header as it is left. -/
def ipv6Done (len l2 : Nat) (m : Mem) : Mem :=
  put16 m (l2 + 4) (BitVec.ofNat 16 (len - (l2 + 40)))

theorem ipv4Header_of (hlen : len < 2 ^ 16) (hprot : m (l2 + 9) = 6#8) (hihl : 5 ≤ ihl (m l2))
    (hin : l2 + 4 * ihl (m l2) ≤ len) :
    ipv4Header len len l2 m = some (some (l2 + 4 * ihl (m l2)), ipv4Done len l2 m) := by
  have hth : u32 (l2 + ihl (m l2) * 4) = l2 + 4 * ihl (m l2) := by
    rw [Nat.mul_comm, u32_of_lt]
    omega
  have h20 : ¬ len < l2 + 20 := by omega
  have h5 : ¬ ihl (m l2) < 5 := by omega
  have hfit : ¬ len < l2 + 4 * ihl (m l2) := by omega
  simp only [ipv4Header, h20, if_false, ld8_of_lt (show l2 + 9 < len by omega), hprot, ne_eq,
    not_true_eq_false, Option.bind_eq_bind, Option.bind_some, ld8_of_lt (show l2 < len by omega),
    h5, hth, hfit, st16_of_le (show l2 + 2 + 2 ≤ len by omega),
    st16_of_le (show l2 + 10 + 2 ≤ len by omega), ipFastCsum,
    within_of_le (show l2 + 4 * ihl (m l2) ≤ len by omega),
    sub32_of_le (show l2 ≤ len by omega) (show len < 2 ^ 32 by omega)]
  rfl

/-- Anything else is NULL, and nothing is read beyond the length on the way to it. -/
theorem ipv4Header_of_not (hlen : len < 2 ^ 16) (hl2 : l2 < 2 ^ 16)
    (h : ¬ (m (l2 + 9) = 6#8 ∧ 5 ≤ ihl (m l2) ∧ l2 + 4 * ihl (m l2) ≤ len ∧ l2 + 20 ≤ len)) :
    ipv4Header len len l2 m = some (none, m) := by
  by_cases h20 : len < l2 + 20
  · simp only [ipv4Header, h20, if_true]
    rfl
  · have hihl := ihl_lt (m l2)
    have hth : u32 (l2 + ihl (m l2) * 4) = l2 + 4 * ihl (m l2) := by
      rw [Nat.mul_comm, u32_of_lt]
      omega
    simp only [ipv4Header, h20, if_false, ld8_of_lt (show l2 + 9 < len by omega),
      ld8_of_lt (show l2 < len by omega)]
    by_cases hprot : m (l2 + 9) = 6#8
    · by_cases h5 : ihl (m l2) < 5
      · simp [hprot, h5]
      · have hfit : len < l2 + 4 * ihl (m l2) := by
          by_contra hfit
          exact h ⟨hprot, by omega, by omega, by omega⟩
        simp [hprot, h5, hth, hfit]
    · simp [hprot]

theorem ipv6Header_of (hlen : len < 2 ^ 16) (hnext : m (l2 + 6) = 6#8) (hin : l2 + 40 ≤ len) :
    ipv6Header len len l2 m = some (some (l2 + 40), ipv6Done len l2 m) := by
  have hth : u32 (l2 + 40) = l2 + 40 := u32_of_lt (by omega)
  have hfit : ¬ len < l2 + 40 := by omega
  simp only [ipv6Header, hth, hfit, if_false, ld8_of_lt (show l2 + 6 < len by omega), hnext,
    ne_eq, not_true_eq_false, Option.bind_eq_bind, Option.bind_some,
    st16_of_le (show l2 + 4 + 2 ≤ len by omega), sub32_of_le hin (show len < 2 ^ 32 by omega)]
  rfl

theorem ipv6Header_of_not (hl2 : l2 < 2 ^ 16) (h : ¬ (m (l2 + 6) = 6#8 ∧ l2 + 40 ≤ len)) :
    ipv6Header len len l2 m = some (none, m) := by
  have hth : u32 (l2 + 40) = l2 + 40 := u32_of_lt (by omega)
  simp only [ipv6Header, hth]
  by_cases hfit : len < l2 + 40
  · simp [hfit]
  · have hnext : m (l2 + 6) ≠ 6#8 := fun hnext => h ⟨hnext, by omega⟩
    simp [hfit, ld8_of_lt (show l2 + 6 < len by omega), hnext]

theorem ipv4Bare_of_ne {i : Nat} (h : ∀ k < 2, i ≠ l2 + 2 + k ∧ i ≠ l2 + 10 + k) :
    ipv4Bare len l2 m i = m i := by
  have h0 := h 0 (by decide)
  have h1 := h 1 (by decide)
  rw [ipv4Bare, put16_of_ne ⟨h0.2, h1.2⟩, put16_of_ne ⟨h0.1, h1.1⟩]

theorem ipv4Done_of_ne {i : Nat} (h : ∀ k < 2, i ≠ l2 + 2 + k ∧ i ≠ l2 + 10 + k) :
    ipv4Done len l2 m i = m i := by
  have h0 := h 0 (by decide)
  have h1 := h 1 (by decide)
  rw [ipv4Done, put16_of_ne ⟨h0.2, h1.2⟩, ipv4Bare_of_ne h]

theorem ipv6Done_of_ne {i : Nat} (h : ∀ k < 2, i ≠ l2 + 4 + k) : ipv6Done len l2 m i = m i := by
  rw [ipv6Done, put16_of_ne ⟨h 0 (by decide), h 1 (by decide)⟩]

theorem ipv4Done_len : get16 (ipv4Done len l2 m) (l2 + 2) = BitVec.ofNat 16 (len - l2) := by
  have hsame : get16 (ipv4Done len l2 m) (l2 + 2) =
      get16 (put16 m (l2 + 2) (BitVec.ofNat 16 (len - l2))) (l2 + 2) := by
    refine get16_congr ?_ ?_ <;>
      rw [ipv4Done, put16_of_ne (by omega), ipv4Bare, put16_of_ne (by omega)]
  rw [hsame, get16_put16_self]

theorem ipv6Done_len : get16 (ipv6Done len l2 m) (l2 + 4) = BitVec.ofNat 16 (len - (l2 + 40)) :=
  get16_put16_self _ _ _

/-- The header verifies. -/
theorem ipv4Done_check (hihl : 5 ≤ ihl (m l2)) :
    csumFold (wordSum (ipv4Done len l2 m) l2 (2 * ihl (m l2))) = 0#16 := by
  have hlt := ihl_lt (m l2)
  refine csumFold_wordSum_put (m := ipv4Bare len l2 m) (j := 5) (by omega) (by omega) ?_ ?_ ?_
  · exact get16_put16_self _ _ _
  · exact get16_put16_self _ _ _
  · intro k _ hk
    refine get16_congr ?_ ?_ <;> rw [ipv4Done, put16_of_ne (by omega)]

/-! ## The TCP header -/

variable {th : Nat}

/-- The timestamp is the only option of the header at `th`. -/
def TimestampAt (m : Mem) (th : Nat) : Prop :=
  doff (m (th + 12)) = 8 ∧ get32 m (th + 20) = 0x0101080a#32

instance : Decidable (TimestampAt m th) := inferInstanceAs (Decidable (_ ∧ _))

/-- The TCP header with acknowledgement and window. -/
def tcpAcked (th : Nat) (m : Mem) : Mem :=
  put16 (put32 m (th + 8) desc.data) (th + 14) desc.tcpWin

/-- The TCP header but for the checksum. -/
def tcpBare (th : Nat) (m : Mem) : Mem :=
  if TimestampAt m th then put32 (tcpAcked desc th m) (th + 28) desc.tcpTsReply
  else tcpAcked desc th m

/-- The TCP header as it is left. -/
def tcpDone (len th : Nat) (m : Mem) : Mem :=
  put16 (tcpBare desc th m) (th + 16) (pseudoSum desc (tcpBare desc th m) (len - th))

theorem tcpAcked_of_ne {i : Nat} (h : ¬ (th + 8 ≤ i ∧ i < th + 12))
    (h' : ¬ (th + 14 ≤ i ∧ i < th + 16)) : tcpAcked desc th m i = m i := by
  rw [tcpAcked, put16_of_ne (by omega), put32_of_ne (by omega)]

theorem tcpBare_of_ne {i : Nat} (h : ¬ (th + 8 ≤ i ∧ i < th + 12))
    (h' : ¬ (th + 14 ≤ i ∧ i < th + 16)) (hts : TimestampAt m th → ¬ (th + 28 ≤ i ∧ i < th + 32)) :
    tcpBare desc th m i = m i := by
  unfold tcpBare
  split_ifs with hlone
  · have hi := hts hlone
    rw [put32_of_ne (by omega), tcpAcked_of_ne desc h h']
  · exact tcpAcked_of_ne desc h h'

theorem tcpDone_of_ne {i : Nat} (h : ¬ (th + 8 ≤ i ∧ i < th + 12))
    (h' : ¬ (th + 14 ≤ i ∧ i < th + 18)) (hts : TimestampAt m th → ¬ (th + 28 ≤ i ∧ i < th + 32)) :
    tcpDone desc len th m i = m i := by
  rw [tcpDone, put16_of_ne (by omega), tcpBare_of_ne desc h (by omega) hts]

/-- The bytes in front of the TCP header stay. -/
theorem tcpDone_of_lt {i : Nat} (h : i < th + 8) : tcpDone desc len th m i = m i :=
  tcpDone_of_ne desc (by omega) (by omega) fun _ => by omega

theorem get32_congr {m' : Mem} {i : Nat} (h : ∀ k < 4, m' (i + k) = m (i + k)) :
    get32 m' i = get32 m i := by
  have h0 : get16 m' i = get16 m i := get16_congr (h 0 (by decide)) (h 1 (by decide))
  have h2 : get16 m' (i + 2) = get16 m (i + 2) := get16_congr (h 2 (by decide)) (h 3 (by decide))
  rw [get32, h0, h2, get32]

theorem tsReply_of (h5 : th + 4 * doff (m (th + 12)) ≤ len) :
    tsReply desc len th (doff (m (th + 12))) (tcpAcked desc th m) = some (tcpBare desc th m) := by
  have hopt : get32 (tcpAcked desc th m) (th + 20) = get32 m (th + 20) := by
    refine get32_congr ?_
    intro k hk
    exact tcpAcked_of_ne desc (by omega) (by omega)
  unfold tsReply tcpBare
  by_cases h8 : doff (m (th + 12)) = 8
  · rw [h8] at h5
    simp only [h8, TimestampAt, ld32_of_le (show th + 20 + 4 ≤ len by omega), hopt,
      Option.bind_eq_bind, Option.bind_some, true_and]
    by_cases hopt : get32 m (th + 20) = 0x0101080a#32
    · simp [hopt, st32_of_le (show th + 20 + 2 * 4 + 4 ≤ len by omega)]
    · simp [hopt]
  · simp [h8, TimestampAt]

/-- The addresses end where the TCP header begins, or before. -/
theorem tcpCheck_of (h20 : th ≤ len) (haddr : desc.l2Len + (if desc.ipv4 then 20 else 40) ≤ th) :
    tcpCheck desc len (len - th) desc.l2Len m = some (~~~pseudoSum desc m (len - th)) := by
  unfold tcpCheck pseudoSum
  cases h4 : desc.ipv4 with
  | true =>
    simp only [h4, if_true] at haddr ⊢
    simp only [tcpV4Check, within_of_le (show desc.l2Len + 12 + 4 ≤ len by omega),
      within_of_le (show desc.l2Len + 16 + 4 ≤ len by omega), BitVec.not_not]
    rfl
  | false =>
    simp only [h4, Bool.false_eq_true, if_false] at haddr ⊢
    simp only [tcpV6Check, within_of_le (show desc.l2Len + 8 + 16 ≤ len by omega),
      within_of_le (show desc.l2Len + 24 + 16 ≤ len by omega), BitVec.not_not]
    rfl

theorem tcpHeader_of (hlen : len < 2 ^ 16) (h20 : th + 20 ≤ len) (h5 : 5 ≤ doff (m (th + 12)))
    (hin : th + 4 * doff (m (th + 12)) ≤ len)
    (haddr : desc.l2Len + (if desc.ipv4 then 20 else 40) ≤ th) :
    tcpHeader desc len len desc.l2Len th m =
      some (some (th + 4 * doff (m (th + 12))), tcpDone desc len th m) := by
  have hth : u32 (th + doff (m (th + 12)) * 4) = th + 4 * doff (m (th + 12)) := by
    rw [Nat.mul_comm, u32_of_lt]
    omega
  have hfit : ¬ len < th + 20 := by omega
  have hdoff : ¬ doff (m (th + 12)) < 5 := by omega
  have hopts : ¬ len < th + 4 * doff (m (th + 12)) := by omega
  have hcheck := tcpCheck_of desc (m := tcpBare desc th m) (show th ≤ len by omega) haddr
  have hacked : put16 (put32 m (th + 8) desc.data) (th + 14) desc.tcpWin = tcpAcked desc th m := rfl
  simp only [tcpHeader, hfit, if_false, ld8_of_lt (show th + 12 < len by omega),
    Option.bind_eq_bind, Option.bind_some, hdoff, hth, hopts,
    st32_of_le (show th + 8 + 4 ≤ len by omega), st16_of_le (show th + 14 + 2 ≤ len by omega),
    hacked, tsReply_of desc hin,
      sub32_of_le (show th ≤ len by omega) (show len < 2 ^ 32 by omega), hcheck,
    st16_of_le (show th + 16 + 2 ≤ len by omega), BitVec.not_not]
  rfl

theorem tcpHeader_of_not (hlen : len < 2 ^ 16)
    (h : ¬ (th + 20 ≤ len ∧ 5 ≤ doff (m (th + 12)) ∧ th + 4 * doff (m (th + 12)) ≤ len)) :
    tcpHeader desc len len desc.l2Len th m = some (none, m) := by
  by_cases hfit : len < th + 20
  · simp only [tcpHeader, hfit, if_true]
    rfl
  · have hlt := doff_lt (m (th + 12))
    have hth : u32 (th + doff (m (th + 12)) * 4) = th + 4 * doff (m (th + 12)) := by
      rw [Nat.mul_comm, u32_of_lt]
      omega
    simp only [tcpHeader, hfit, if_false, ld8_of_lt (show th + 12 < len by omega)]
    by_cases h5 : doff (m (th + 12)) < 5
    · simp [h5]
    · have hopts : len < th + 4 * doff (m (th + 12)) := by
        by_contra hopts
        exact h ⟨by omega, by omega, by omega⟩
      simp [h5, hth, hopts]

end Headers

/-! ## The whole function -/

variable {m : Mem} {alloc : Bool}

/-- The buffer behind the IP header. -/
def ipDone (m : Mem) : Mem :=
  if desc.ipv4 then ipv4Done desc.len desc.l2Len m else ipv6Done desc.len desc.l2Len m

/-- The buffer behind both. -/
def lroDone (m : Mem) : Mem := tcpDone desc desc.len (thAt desc m) (ipDone desc m)

/-- The skb of a buffer that is accepted. -/
def lroSkb (m : Mem) : Skb where
  head := fun i => if i < dataAt desc m then lroDone desc m i else 0#8
  headLen := dataAt desc m
  fragOff := dataAt desc m
  fragLen := desc.len - dataAt desc m
  tcpV4 := desc.ipv4
  gsoSize := BitVec.ofNat 16 (divRoundUp (desc.len - dataAt desc m) desc.aggCount)
  gsoSegs := BitVec.ofNat 16 desc.aggCount
  csumStart := thAt desc m
  csumOffset := 16

variable {desc}

/-- The IP header has at least its fixed part. -/
theorem Accepts.addresses (h : Accepts desc m) :
    desc.l2Len + (if desc.ipv4 then 20 else 40) ≤ thAt desc m := by
  unfold thAt
  rcases h.ip with ⟨h4, -, hihl⟩ | ⟨h4, -, -⟩
  · simp only [h4, if_true]
    omega
  · simp [h4]

theorem Accepts.dataAt_ge (h : Accepts desc m) : thAt desc m + 20 ≤ dataAt desc m := by
  have h5 := h.doff
  unfold dataAt
  omega

/-- The IP header leaves the TCP header as it is. -/
theorem ipDone_of_ge (h : Accepts desc m) {i : Nat} (hi : thAt desc m ≤ i) :
    ipDone desc m i = m i := by
  have haddr := h.addresses
  unfold ipDone
  cases h4 : desc.ipv4 with
  | true =>
    simp only [h4, if_true] at haddr ⊢
    exact ipv4Done_of_ne fun k hk => ⟨by omega, by omega⟩
  | false =>
    simp only [h4, Bool.false_eq_true, if_false] at haddr ⊢
    exact ipv6Done_of_ne fun k hk => by omega

theorem run_of_accepts (h : Accepts desc m) (alloc : Bool) :
    airohaQdmaLroRxSkb desc desc.len alloc m =
      some (if alloc then some (lroSkb desc m) else none, lroDone desc m) := by
  have hlen := len_lt desc
  have htcp := h.tcp
  have hopts := h.options
  have hdata : thAt desc m + 4 * doff (m (thAt desc m + 12)) = dataAt desc m := rfl
  have hdoff : ipDone desc m (thAt desc m + 12) = m (thAt desc m + 12) :=
    ipDone_of_ge h (by omega)
  have htcpHeader := tcpHeader_of desc (m := ipDone desc m) hlen h.tcp (by rw [hdoff]; exact h.doff)
    (by rw [hdoff, hdata]; exact hopts) h.addresses
  rw [hdoff, hdata] at htcpHeader
  have hbuild : buildSkb desc desc.len desc.len (thAt desc m) (dataAt desc m) alloc
      (lroDone desc m) = some (if alloc then some (lroSkb desc m) else none) := by
    unfold buildSkb
    cases alloc with
    | false => rfl
    | true =>
      simp only [Bool.not_true, Bool.false_eq_true, if_false, memcpy_of_le hopts,
        sub32_of_le hopts (show desc.len < 2 ^ 32 by omega), if_true]
      rfl
  rcases h.ip with ⟨h4, hprot, hihl⟩ | ⟨h4, h6, hnext⟩
  · have hth : thAt desc m = desc.l2Len + 4 * ihl (m desc.l2Len) := by simp [thAt, h4]
    have hip : ipDone desc m = ipv4Done desc.len desc.l2Len m := by simp [ipDone, h4]
    have hheader := ipv4Header_of hlen hprot hihl (by omega)
    rw [← hth, ← hip] at hheader
    simp only [airohaQdmaLroRxSkb, h4, Bool.not_true, Bool.false_and, Bool.false_eq_true, if_false,
      if_true, hheader, Option.bind_eq_bind, Option.bind_some, htcpHeader]
    rw [← lroDone, hbuild]
    rfl
  · have hth : thAt desc m = desc.l2Len + 40 := by simp [thAt, h4]
    have hip : ipDone desc m = ipv6Done desc.len desc.l2Len m := by simp [ipDone, h4]
    have hheader := ipv6Header_of hlen hnext (by omega)
    rw [← hth, ← hip] at hheader
    simp only [airohaQdmaLroRxSkb, h4, h6, Bool.not_true, Bool.and_false, Bool.false_eq_true,
      if_false, hheader, Option.bind_eq_bind, Option.bind_some, htcpHeader]
    rw [← lroDone, hbuild]
    rfl

/-- An IP header that is accepted, and no TCP behind it. -/
theorem tcpHeader_of_not_accepts {m' : Mem} (hip : ¬ (thAt desc m + 20 ≤ desc.len ∧
      5 ≤ doff (m (thAt desc m + 12)) ∧ dataAt desc m ≤ desc.len))
    (hsame : m' (thAt desc m + 12) = m (thAt desc m + 12)) :
    tcpHeader desc desc.len desc.len desc.l2Len (thAt desc m) m' = some (none, m') := by
  refine tcpHeader_of_not desc (len_lt desc) ?_
  rw [hsame]
  exact hip

/-- Anything else is NULL, and nothing is read or written beyond the length on the way to it. -/
theorem run_of_not_accepts (h : ¬ Accepts desc m) (alloc : Bool) :
    ∃ m', airohaQdmaLroRxSkb desc desc.len alloc m = some (none, m') := by
  have hlen := len_lt desc
  have hl2 := l2Len_lt desc
  cases h4 : desc.ipv4 with
  | true =>
    have hth : thAt desc m = desc.l2Len + 4 * ihl (m desc.l2Len) := by simp [thAt, h4]
    by_cases hok : m (desc.l2Len + 9) = 6#8 ∧ 5 ≤ ihl (m desc.l2Len) ∧
        desc.l2Len + 4 * ihl (m desc.l2Len) ≤ desc.len ∧ desc.l2Len + 20 ≤ desc.len
    · have hheader := ipv4Header_of hlen hok.1 hok.2.1 hok.2.2.1
      have htcp : tcpHeader desc desc.len desc.len desc.l2Len (thAt desc m)
          (ipv4Done desc.len desc.l2Len m) = some (none, ipv4Done desc.len desc.l2Len m) := by
        refine tcpHeader_of_not_accepts ?_ (ipv4Done_of_ne fun k hk => ⟨by omega, by omega⟩)
        exact fun ht => h ⟨Or.inl ⟨h4, hok.1, hok.2.1⟩, ht.1, ht.2.1, ht.2.2⟩
      rw [← hth] at hheader
      refine ⟨ipv4Done desc.len desc.l2Len m, ?_⟩
      simp only [airohaQdmaLroRxSkb, h4, Bool.not_true, Bool.false_and, Bool.false_eq_true,
        if_false, if_true, hheader, Option.bind_eq_bind, Option.bind_some, htcp]
      rfl
    · refine ⟨m, ?_⟩
      simp only [airohaQdmaLroRxSkb, h4, Bool.not_true, Bool.false_and, Bool.false_eq_true,
        if_false, if_true, ipv4Header_of_not hlen hl2 hok, Option.bind_eq_bind, Option.bind_some]
      rfl
  | false =>
    cases h6 : desc.ipv6 with
    | true =>
      have hth : thAt desc m = desc.l2Len + 40 := by simp [thAt, h4]
      by_cases hok : m (desc.l2Len + 6) = 6#8 ∧ desc.l2Len + 40 ≤ desc.len
      · have hheader := ipv6Header_of hlen hok.1 hok.2
        have htcp : tcpHeader desc desc.len desc.len desc.l2Len (thAt desc m)
            (ipv6Done desc.len desc.l2Len m) = some (none, ipv6Done desc.len desc.l2Len m) := by
          refine tcpHeader_of_not_accepts ?_ (ipv6Done_of_ne fun k hk => by omega)
          exact fun ht => h ⟨Or.inr ⟨h4, h6, hok.1⟩, ht.1, ht.2.1, ht.2.2⟩
        rw [← hth] at hheader
        refine ⟨ipv6Done desc.len desc.l2Len m, ?_⟩
        simp only [airohaQdmaLroRxSkb, h4, h6, Bool.not_true, Bool.and_false, Bool.false_eq_true,
          if_false, hheader, Option.bind_eq_bind, Option.bind_some, htcp]
        rfl
      · refine ⟨m, ?_⟩
        simp only [airohaQdmaLroRxSkb, h4, h6, Bool.not_true, Bool.and_false, Bool.false_eq_true,
          if_false, ipv6Header_of_not hl2 hok, Option.bind_eq_bind, Option.bind_some]
        rfl
    | false =>
      refine ⟨m, ?_⟩
      simp only [airohaQdmaLroRxSkb, h4, h6]
      rfl

/-! ## The super-segment -/

theorem mayChange_lt (h : Accepts desc m) {i : Nat} (hi : MayChange desc m i) :
    i < dataAt desc m := by
  have haddr := h.addresses
  have hge := h.dataAt_ge
  rcases hi with ⟨h4, k, hk, hi⟩ | ⟨h4, k, hk, hi⟩ | ⟨k, hk, hi⟩ | ⟨k, hk, hi⟩ |
    ⟨hts, k, hk, hi⟩
  · simp only [h4, if_true] at haddr
    omega
  · simp only [h4, Bool.false_eq_true, if_false] at haddr
    omega
  · omega
  · omega
  · have h8 := hts.1
    unfold dataAt
    omega

/-- The timestamp is seen as it was. -/
theorem timestampAt_ipDone (h : Accepts desc m) :
    TimestampAt (ipDone desc m) (thAt desc m) ↔ LoneTimestamp desc m := by
  unfold TimestampAt LoneTimestamp
  rw [ipDone_of_ge h (by omega), get32_congr (m := m) fun k _ => ipDone_of_ge h (by omega)]

theorem lroDone_of_not (h : Accepts desc m) {i : Nat} (hi : ¬ MayChange desc m i) :
    lroDone desc m i = m i := by
  have hack : ¬ (thAt desc m + 8 ≤ i ∧ i < thAt desc m + 12) := fun hin =>
    hi (Or.inr (Or.inr (Or.inl ⟨i - (thAt desc m + 8), by omega, by omega⟩)))
  have hwin : ¬ (thAt desc m + 14 ≤ i ∧ i < thAt desc m + 18) := by
    intro hin
    refine hi (Or.inr (Or.inr (Or.inr (Or.inl ?_))))
    rcases Nat.lt_or_ge i (thAt desc m + 16) with hlt | hge
    · exact ⟨i - (thAt desc m + 14), by omega, Or.inl (by omega)⟩
    · exact ⟨i - (thAt desc m + 16), by omega, Or.inr (by omega)⟩
  have hts : TimestampAt (ipDone desc m) (thAt desc m) →
      ¬ (thAt desc m + 28 ≤ i ∧ i < thAt desc m + 32) := fun hlone hin =>
    hi (Or.inr (Or.inr (Or.inr (Or.inr ⟨(timestampAt_ipDone h).mp hlone,
      i - (thAt desc m + 28), by omega, by omega⟩))))
  rw [lroDone, tcpDone_of_ne desc hack hwin hts, ipDone]
  cases h4 : desc.ipv4 with
  | true =>
    simp only [if_true]
    refine ipv4Done_of_ne fun k hk => ?_
    constructor
    · exact fun heq => hi (Or.inl ⟨h4, k, hk, Or.inl heq⟩)
    · exact fun heq => hi (Or.inl ⟨h4, k, hk, Or.inr heq⟩)
  | false =>
    simp only [Bool.false_eq_true, if_false]
    exact ipv6Done_of_ne fun k hk heq => hi (Or.inr (Or.inl ⟨h4, k, hk, heq⟩))

theorem head_of_lt {i : Nat} (hi : i < dataAt desc m) : (lroSkb desc m).head i = lroDone desc m i :=
  if_pos hi

/-- The bytes of the IP header in the skb. -/
theorem head_ip (h : Accepts desc m) {i : Nat} (hi : i < thAt desc m) :
    (lroSkb desc m).head i = ipDone desc m i := by
  have hge := h.dataAt_ge
  rw [head_of_lt (by omega), lroDone, tcpDone_of_lt desc (by omega)]

theorem ipLen_right (h : Accepts desc m) : if desc.ipv4
    then get16 (lroSkb desc m).head (desc.l2Len + 2) = BitVec.ofNat 16 (desc.len - desc.l2Len)
    else get16 (lroSkb desc m).head (desc.l2Len + 4) =
      BitVec.ofNat 16 (desc.len - thAt desc m) := by
  have haddr := h.addresses
  cases h4 : desc.ipv4 with
  | true =>
    simp only [h4, if_true] at haddr ⊢
    rw [get16_congr (m := ipDone desc m) (head_ip h (by omega)) (head_ip h (by omega)), ipDone, h4]
    exact ipv4Done_len
  | false =>
    have hth : thAt desc m = desc.l2Len + 40 := by simp [thAt, h4]
    simp only [h4, Bool.false_eq_true, if_false] at haddr ⊢
    rw [get16_congr (m := ipDone desc m) (head_ip h (by omega)) (head_ip h (by omega)), ipDone, h4,
      hth]
    exact ipv6Done_len

theorem ipCheck_right (h : Accepts desc m) (h4 : desc.ipv4 = true) :
    csumFold (wordSum (lroSkb desc m).head desc.l2Len
      (2 * ihl ((lroSkb desc m).head desc.l2Len))) = 0#16 := by
  have haddr := h.addresses
  have hip : ipDone desc m = ipv4Done desc.len desc.l2Len m := by simp [ipDone, h4]
  have hth : thAt desc m = desc.l2Len + 4 * ihl (m desc.l2Len) := by simp [thAt, h4]
  simp only [h4, if_true] at haddr
  have hver : (lroSkb desc m).head desc.l2Len = m desc.l2Len := by
    rw [head_ip h (by omega), hip]
    exact ipv4Done_of_ne fun k hk => ⟨by omega, by omega⟩
  have hsum : wordSum (lroSkb desc m).head desc.l2Len (2 * ihl (m desc.l2Len)) =
      wordSum (ipv4Done desc.len desc.l2Len m) desc.l2Len (2 * ihl (m desc.l2Len)) := by
    refine wordSum_congr ?_
    intro j _ hj
    rw [head_ip h (by omega), hip]
  rw [hver, hsum]
  exact ipv4Done_check (by omega)

theorem tcpCheck_right (h : Accepts desc m) : get16 (lroSkb desc m).head (thAt desc m + 16) =
    pseudoSum desc (lroSkb desc m).head (desc.len - thAt desc m) := by
  have haddr := h.addresses
  have hge := h.dataAt_ge
  have hfield : get16 (lroSkb desc m).head (thAt desc m + 16) =
      get16 (lroDone desc m) (thAt desc m + 16) :=
    get16_congr (head_of_lt (by omega)) (head_of_lt (by omega))
  have hsum : ∀ i n, i + 2 * n ≤ thAt desc m → wordSum (lroSkb desc m).head i n =
      wordSum (tcpBare desc (thAt desc m) (ipDone desc m)) i n := by
    intro i n hin
    refine wordSum_congr ?_
    intro j _ hj
    rw [head_ip h (by omega), tcpBare_of_ne desc (by omega) (by omega) fun _ => by omega]
  rw [hfield, lroDone, tcpDone, get16_put16_self]
  unfold pseudoSum
  cases h4 : desc.ipv4 with
  | true =>
    simp only [h4, if_true] at haddr ⊢
    rw [hsum _ _ (by omega), hsum _ _ (by omega)]
  | false =>
    simp only [h4, Bool.false_eq_true, if_false] at haddr ⊢
    rw [hsum _ _ (by omega), hsum _ _ (by omega)]

/-- The sizes of the cut, which fit into 16 bits. -/
theorem gso_right (hagg : 1 < desc.aggCount) :
    (lroSkb desc m).gsoSize.toNat =
        (desc.len - dataAt desc m + desc.aggCount - 1) / desc.aggCount ∧
      (lroSkb desc m).gsoSegs.toNat = desc.aggCount := by
  have hlen := len_lt desc
  have hlt := aggCount_lt desc
  have hdiv : (desc.len - dataAt desc m + desc.aggCount - 1) / desc.aggCount < 2 ^ 16 := by
    refine (Nat.div_lt_iff_lt_mul (by omega)).mpr ?_
    have hmul : 2 ^ 16 * 2 ≤ 2 ^ 16 * desc.aggCount := Nat.mul_le_mul_left _ hagg
    omega
  constructor
  · simp only [lroSkb, divRoundUp, BitVec.toNat_ofNat, u32_of_lt (show
      desc.len - dataAt desc m + desc.aggCount - 1 < 2 ^ 32 by omega)]
    exact Nat.mod_eq_of_lt hdiv
  · simp only [lroSkb, BitVec.toNat_ofNat]
    exact Nat.mod_eq_of_lt (by omega)

/-- All but the cut holds of every buffer that is accepted. -/
theorem superSegment_iff (h : Accepts desc m) (hagg : 1 < desc.aggCount) :
    SuperSegment desc m (lroDone desc m) (lroSkb desc m) ↔
      Fills (desc.len - dataAt desc m) desc.aggCount := by
  obtain ⟨hsize, hsegs⟩ := gso_right (m := m) hagg
  rw [← fills_iff hagg]
  constructor
  · intro hseg
    have hpos := hseg.gsoSize
    have hcut := hseg.gsoSegs
    rw [hsize] at hpos hcut
    rw [hsegs] at hcut
    exact ⟨hpos, hcut⟩
  · intro hfills
    constructor
    · rfl
    · intro i hi hnot
      rw [head_of_lt hi]
      exact lroDone_of_not h hnot
    · exact ⟨rfl, rfl⟩
    · intro i hi
      exact lroDone_of_not h fun hmay => absurd (mayChange_lt h hmay) (by omega)
    · exact ipLen_right h
    · exact ipCheck_right h
    · exact tcpCheck_right h
    · exact ⟨rfl, rfl⟩
    · rfl
    · rw [hsize]
      exact hfills.1
    · rw [hsize, hsegs]
      exact hfills.2

/-- No access at or beyond the length, and a super-segment if there is a skb: for a descriptor with
more than one segment this holds if and only if the payload of a buffer that is accepted, where the
skb can be allocated, fills the segments. -/
theorem lroRight_iff (desc : QdmaDesc) (hagg : 1 < desc.aggCount) (alloc : Bool) (m : Mem) :
    LroRight desc alloc m ↔
      (alloc = true → Accepts desc m → Fills (desc.len - dataAt desc m) desc.aggCount) := by
  unfold LroRight
  by_cases h : Accepts desc m
  · rw [run_of_accepts h]
    cases alloc with
    | false => simp
    | true =>
      simp only [if_true, Option.some.injEq, Prod.mk.injEq, true_implies, h]
      rw [← superSegment_iff h hagg]
      constructor
      · rintro ⟨skb, m', ⟨hskb, hm'⟩, hright⟩
        rw [hm']
        exact hright _ hskb.symm
      · intro hseg
        refine ⟨_, _, ⟨rfl, rfl⟩, ?_⟩
        intro s hs
        cases hs
        exact hseg
  · obtain ⟨m', hrun⟩ := run_of_not_accepts h alloc
    refine iff_of_true ⟨none, m', hrun, ?_⟩ fun _ hacc => absurd hacc h
    intro s hs
    cases hs

/-! ## A frame without options -/

/-- IPv4 behind 14 bytes, and TCP behind it: the payload begins at 54. -/
def plainFrame : Mem := fun i =>
  if i = 14 then 0x45#8 else if i = 23 then 6#8 else if i = 46 then 0x50#8 else 0#8

/-- Its descriptor, by length and number of segments. -/
def plainDesc (len agg : BitVec 32) : QdmaDesc where
  tcpTsReply := 0#32
  ctrl := len
  data := 0#32
  msg1 := 0x20000000#32
  msg2 := agg <<< 24 ||| 28#32
  msg3 := 0#32

/-- Two segments with four bytes. -/
theorem lroRight_plain : LroRight (plainDesc 58#32 2#32) true plainFrame := by
  refine (lroRight_iff (plainDesc 58#32 2#32) (by decide) true plainFrame).mpr ?_
  intro _ _
  exact ⟨by decide, Or.inl (by decide)⟩

/-- Four segments with five bytes: two for each make three pieces. -/
theorem not_lroRight_plain : ¬ LroRight (plainDesc 59#32 4#32) true plainFrame := by
  have hacc : Accepts (plainDesc 59#32 4#32) plainFrame :=
    ⟨by decide, by decide, by decide, by decide⟩
  rintro ⟨skb, m', hrun, hright⟩
  rw [run_of_accepts hacc] at hrun
  simp only [if_true, Option.some.injEq, Prod.mk.injEq] at hrun
  have hseg := hright _ hrun.1.symm
  rw [← hrun.2, superSegment_iff hacc (by decide)] at hseg
  revert hseg
  unfold Fills
  decide

end Airoha.Qdma.LroSkb
