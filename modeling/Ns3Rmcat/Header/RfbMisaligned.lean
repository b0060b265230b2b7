import Ns3Rmcat.Header.RfbBlocks
import Ns3Rmcat.Header.RfbReading

/-! Reading report blocks from one word before their start, as the reader does after
the padding of a block that is not the last: it cannot find all of them. -/
namespace Ns3Rmcat.Header
open Lib

namespace RfbHeader

private theorem deserializeMetrics_words {ssrc : UInt32} {seqs ws : List UInt16} {g g' : RfbHeader} {rest : Octets}
    (h : deserializeMetrics ssrc seqs g (writeWords ws) = .ok (g', rest)) :
    seqs.length ≤ ws.length ∧ rest = writeWords (ws.drop seqs.length) ∧
      ∀ key ∈ g'.reportBlocks, key ∈ g.reportBlocks ∨ key = ssrc := by
  have hsettles := deserializeMetrics_settles ssrc seqs g (writeWords ws)
  rw [h] at hsettles
  obtain ⟨htaken, hgains⟩ := hsettles
  have hfits := htaken.enough
  have hrest : rest = (writeWords ws).drop (2 * seqs.length) := htaken.rest_eq
  rw [length_writeWords] at hfits
  rw [drop_writeWords] at hrest
  refine ⟨by omega, hrest, fun key hkey => ?_⟩
  exact (hgains.keys key hkey).imp_right List.mem_singleton.mp

private theorem deserializeBlocks_round {rounds : Nat} {lenLeft : UInt64} {g : RfbHeader} {ws : List UInt16}
    {result : RfbHeader × Octets} (hlen : lenLeft ≠ 0)
    (h : deserializeBlocks (rounds + 1) lenLeft g (writeWords ws) = .ok result) :
    ∃ hi lo count endSeq us, ws = hi :: lo :: count :: endSeq :: us ∧ count.toNat ≤ us.length ∧
      ∃ lenLeft' g', deserializeBlocks rounds lenLeft' g' (writeWords (us.drop count.toNat)) = .ok result ∧
        ∀ key ∈ g'.reportBlocks, key ∈ g.reportBlocks ∨
          (key = hi.toUInt32 <<< 16 ||| lo.toUInt32 ∧ count ≠ 0) := by
  rw [deserializeBlocks, if_neg hlen] at h
  obtain ⟨-, h⟩ := check_bind_eq_ok.mp h
  obtain ⟨⟨ssrc, rest1⟩, h1, h⟩ := bind_eq_ok.mp h
  obtain ⟨hi, lo, us1, rfl, rfl, rfl⟩ := readNtohU32_eq_ok h1
  obtain ⟨⟨count, rest2⟩, h2, h⟩ := bind_eq_ok.mp h
  obtain ⟨us2, rfl, rfl⟩ := readNtohU16_eq_ok h2
  obtain ⟨⟨endSeq, rest3⟩, h3, h⟩ := bind_eq_ok.mp h
  obtain ⟨us, rfl, rfl⟩ := readNtohU16_eq_ok h3
  by_cases hcount : count = 0
  · simp only [if_pos hcount] at h
    subst hcount
    exact ⟨hi, lo, 0, endSeq, us, rfl, Nat.zero_le _, _, g, h, fun key hkey => .inl hkey⟩
  · simp only [if_neg hcount] at h
    obtain ⟨⟨g', rest4⟩, h4, h⟩ := bind_eq_ok.mp h
    obtain ⟨hfits, rfl, hkeys⟩ := deserializeMetrics_words h4
    rw [length_windowSeqs] at hfits h
    refine ⟨hi, lo, count, endSeq, us, rfl, hfits, _, g', h, fun key hkey => ?_⟩
    exact (hkeys key hkey).imp_right fun he => ⟨he, hcount⟩

/-- Words that are zero or have the highest bit, apart from four from each start of a head. -/
def Headed (starts : Finset Nat) (ws : List UInt16) : Prop :=
  ∀ i w, ws[i]? = some w → w = 0 ∨ 0x8000 ≤ w.toNat ∨ ∃ p ∈ starts, p ≤ i ∧ i ≤ p + 3

/-- The heads whose count a reader at this position can still come to read. -/
def headsFrom (starts : Finset Nat) (i : Nat) : Finset Nat := starts.filter fun p => i ≤ p + 1

private theorem headsFrom_card_le (starts : Finset Nat) {i j : Nat} (h : i ≤ j) :
    (headsFrom starts j).card ≤ (headsFrom starts i).card := by
  refine Finset.card_le_card fun p hp => ?_
  rw [headsFrom, Finset.mem_filter] at hp ⊢
  exact ⟨hp.1, by omega⟩

private theorem headsFrom_card_lt {starts : Finset Nat} {i j p : Nat} (hp : p ∈ starts) (hi : i ≤ p + 1)
    (hj : p + 1 < j) : (headsFrom starts j).card < (headsFrom starts i).card := by
  refine Finset.card_lt_card ⟨fun q hq => ?_, fun hsub => ?_⟩
  · rw [headsFrom, Finset.mem_filter] at hq ⊢
    exact ⟨hq.1, by omega⟩
  · have hmem : p ∈ headsFrom starts j := hsub (Finset.mem_filter.mpr ⟨hp, hi⟩)
    rw [headsFrom, Finset.mem_filter] at hmem
    omega

/-- From any position, the rounds that return add no more SSRCs than there are heads to come:
a count that is neither zero nor too large is a word of a head, and of another head each time. -/
private theorem deserializeBlocks_adds {starts : Finset Nat} {ws : List UInt16} (hheaded : Headed starts ws)
    (hlen : ws.length < 0x8000) {rounds i : Nat} {lenLeft : UInt64} {g g' : RfbHeader} {rest : Octets}
    (h : deserializeBlocks rounds lenLeft g (writeWords (ws.drop i)) = .ok (g', rest)) :
    ∃ added : Finset UInt32, added.card ≤ (headsFrom starts i).card ∧
      ∀ key ∈ g'.reportBlocks, key ∈ g.reportBlocks ∨ key ∈ added := by
  induction rounds generalizing i lenLeft g with
  | zero => cases h
  | succ rounds ih =>
    by_cases hleft : lenLeft = 0
    · rw [deserializeBlocks, if_pos hleft] at h
      cases h
      exact ⟨∅, by simp, fun key hkey => .inl hkey⟩
    · obtain ⟨hi, lo, count, endSeq, us, hws, hfits, lenLeft', g1, h1, hkeys⟩ := deserializeBlocks_round hleft h
      have hus : us = ws.drop (i + 4) := by
        rw [← List.drop_drop, hws]
        rfl
      have hcountAt : ws[i + 2]? = some count := by
        rw [← List.getElem?_drop, hws]
        rfl
      rw [hus, List.drop_drop] at h1
      obtain ⟨added, hadded, hall⟩ := ih h1
      have hsmall : count.toNat < 0x8000 := by
        rw [hus, List.length_drop] at hfits
        omega
      by_cases hcount : count = 0
      · refine ⟨added, hadded.trans (headsFrom_card_le starts (by omega)), fun key hkey => ?_⟩
        refine (hall key hkey).imp_left fun hold => ?_
        exact (hkeys key hold).resolve_right fun hnew => hnew.2 hcount
      · have hpos : 0 < count.toNat := by
          rw [Nat.pos_iff_ne_zero]
          exact fun hzero => hcount (UInt16.toNat_inj.mp hzero)
        obtain ⟨p, hp, hle, hge⟩ : ∃ p ∈ starts, p ≤ i + 2 ∧ i + 2 ≤ p + 3 := by
          rcases hheaded (i + 2) count hcountAt with hzero | hhigh | hhead
          · exact absurd hzero hcount
          · omega
          · exact hhead
        have hlt := headsFrom_card_lt (i := i) (j := i + 4 + count.toNat) hp (by omega) (by omega)
        refine ⟨insert (hi.toUInt32 <<< 16 ||| lo.toUInt32) added, ?_, fun key hkey => ?_⟩
        · have := Finset.card_insert_le (hi.toUInt32 <<< 16 ||| lo.toUInt32) added
          omega
        · rw [Finset.mem_insert]
          rcases hall key hkey with hold | hnew
          · rcases hkeys key hold with hg | ⟨hnew, -⟩
            · exact .inl hg
            · exact .inr (.inl hnew)
          · exact .inr (.inr hnew)

private theorem metricOctets_word (metric : Option (UInt8 × UInt16)) :
    ∃ w, metricOctets metric = writeHtonU16 w ∧ (w = 0 ∨ 0x8000 ≤ w.toNat) := by
  cases metric with
  | none => exact ⟨0, rfl, .inl rfl⟩
  | some pair =>
    refine ⟨_, (writeHtonU16_join _ _).symm, .inr ?_⟩
    rw [toNat_join]
    have hbit : 128 ≤ (rtpHdrSetBit 0 7 true ||| ((pair.1 &&& 0x03) <<< 5) ||| (pair.2 >>> 8).toUInt8).toNat := by
      have hset : (rtpHdrSetBit 0 7 true).toNat = 128 := rfl
      rw [UInt8.toNat_or, UInt8.toNat_or, hset]
      exact Nat.left_le_or.trans Nat.left_le_or
    omega

private theorem serializeMetrics_words {h : RfbHeader} {rb : RfbReportBlock} {seqs : List UInt16} {bytes : Octets}
    (hbytes : h.serializeMetrics rb seqs = .ok bytes) :
    ∃ ws, bytes = writeWords ws ∧ ∀ w ∈ ws, w = 0 ∨ 0x8000 ≤ w.toNat := by
  induction seqs generalizing bytes with
  | nil =>
    cases hbytes
    exact ⟨[], rfl, by simp⟩
  | cons seq seqs ih =>
    obtain ⟨metric, -, hrest⟩ := bind_eq_ok.mp hbytes
    obtain ⟨rest, hr, he⟩ := bind_eq_ok.mp hrest
    cases he
    obtain ⟨w, hw, hplain⟩ := metricOctets_word metric
    obtain ⟨ws, rfl, hall⟩ := ih hr
    refine ⟨w :: ws, by rw [hw, writeWords_cons], fun v hv => ?_⟩
    rcases List.mem_cons.mp hv with rfl | hv
    · exact hplain
    · exact hall v hv

private theorem paddingOf_words (count : UInt16) :
    ∃ ws, paddingOf count = writeWords ws ∧ ∀ w ∈ ws, w = 0 ∨ 0x8000 ≤ w.toNat := by
  unfold paddingOf
  split
  · exact ⟨[0], rfl, by simp⟩
  · exact ⟨[], rfl, by simp⟩

private theorem Headed.append {starts : Finset Nat} {ws us : List UInt16} (h : Headed starts ws)
    (hus : ∀ w ∈ us, w = 0 ∨ 0x8000 ≤ w.toNat) : Headed (starts.image (us.length + ·)) (us ++ ws) := by
  intro i w hw
  by_cases hi : i < us.length
  · rw [List.getElem?_append_left hi] at hw
    rcases hus w (List.mem_of_getElem? hw) with hzero | hhigh
    · exact .inl hzero
    · exact .inr (.inl hhigh)
  · rw [List.getElem?_append_right (Nat.le_of_not_lt hi)] at hw
    rcases h _ w hw with hzero | hhigh | ⟨p, hp, hle, hge⟩
    · exact .inl hzero
    · exact .inr (.inl hhigh)
    · exact .inr (.inr ⟨us.length + p, Finset.mem_image_of_mem _ hp, by omega, by omega⟩)

private theorem Headed.head {starts : Finset Nat} {ws : List UInt16} (h : Headed starts ws) (a b c d : UInt16) :
    Headed (insert 0 (starts.image (4 + ·))) (a :: b :: c :: d :: ws) := by
  intro i w hw
  by_cases hi : i < 4
  · exact .inr (.inr ⟨0, Finset.mem_insert_self _ _, Nat.zero_le _, by omega⟩)
  · have hshift : (a :: b :: c :: d :: ws)[i]? = ws[i - 4]? := by
      obtain ⟨j, rfl⟩ := Nat.exists_eq_add_of_le (Nat.le_of_not_lt hi)
      rw [Nat.add_sub_cancel_left, Nat.add_comm]
      rfl
    rw [hshift] at hw
    rcases h _ w hw with hzero | hhigh | ⟨p, hp, hle, hge⟩
    · exact .inl hzero
    · exact .inr (.inl hhigh)
    · refine .inr (.inr ⟨4 + p, Finset.mem_insert_of_mem (Finset.mem_image_of_mem _ hp), ?_, ?_⟩)
      · omega
      · omega

private theorem serializeBlocks_words {h : RfbHeader} {blocks : List (UInt32 × RfbReportBlock)} {bytes : Octets}
    (hbytes : h.serializeBlocks blocks = .ok bytes) :
    ∃ ws starts, bytes = writeWords ws ∧ Headed starts ws ∧ starts.card ≤ blocks.length ∧
      ∀ rb ∈ blocks.head?, 0 ∈ starts ∧ ∃ us, ws = (rb.1 >>> 16).toUInt16 :: rb.1.toUInt16 :: us := by
  induction blocks generalizing bytes with
  | nil =>
    cases hbytes
    exact ⟨[], ∅, rfl, by simp [Headed], by simp, by simp⟩
  | cons block blocks ih =>
    obtain ⟨ssrc, rb⟩ := block
    obtain ⟨metrics, hmetrics, hrest⟩ := bind_eq_ok.mp hbytes
    obtain ⟨rest, hr, he⟩ := bind_eq_ok.mp hrest
    cases he
    obtain ⟨ms, rfl, hms⟩ := serializeMetrics_words hmetrics
    obtain ⟨ws, starts, rfl, hheaded, hcard, -⟩ := ih hr
    obtain ⟨ps, hpadding, hps⟩ := paddingOf_words ((h.getCountEndSeq ssrc).2 -
      ((h.getCountEndSeq ssrc).2 - (h.getCountEndSeq ssrc).1 + 1) + 1)
    have hplain : ∀ w ∈ ms ++ ps, w = 0 ∨ 0x8000 ≤ w.toNat := fun w hw =>
      (List.mem_append.mp hw).elim (hms w) (hps w)
    refine ⟨_, _, ?_, (hheaded.append hplain).head (ssrc >>> 16).toUInt16 ssrc.toUInt16
      (h.getCountEndSeq ssrc).1 (h.getCountEndSeq ssrc).2, ?_, ?_⟩
    · rw [hpadding, writeHtonU32_words]
      simp only [writeWords_cons, writeWords_append, writeWords_nil, List.append_assoc, List.append_nil]
    · refine (Finset.card_insert_le _ _).trans (Nat.succ_le_succ ?_)
      exact (Finset.card_image_le.trans Finset.card_image_le).trans hcard
    · intro rb' hrb'
      cases hrb'
      exact ⟨Finset.mem_insert_self _ _, _, rfl⟩

/-- The SSRC that is read from a padding word and the upper half of a number other than zero
is less than that number. -/
private theorem padded_ssrc_lt {ssrc : UInt32} (h : 0 < ssrc.toNat) :
    ((0 : UInt16).toUInt32 <<< 16 ||| ((ssrc >>> 16).toUInt16).toUInt32).toNat < ssrc.toNat := by
  have hlt := ssrc.toNat_lt
  have hzero : (0 : UInt16).toUInt32 <<< 16 = 0 := rfl
  have e16 : UInt32.toNat 16 % 32 = 16 := rfl
  rw [hzero, UInt32.zero_or, UInt16.toNat_toUInt32, UInt32.toNat_toUInt16, UInt32.toNat_shiftRight, e16,
    Nat.shiftRight_eq_div_pow]
  omega

/-- Read from one word before their start, report blocks in the order of their SSRCs do not
all come back. -/
theorem deserializeBlocks_misaligned {h g g' : RfbHeader} {blocks : List (UInt32 × RfbReportBlock)}
    {bytes rest : Octets} {rounds : Nat} {lenLeft : UInt64} (hne : blocks ≠ []) (hleft : lenLeft ≠ 0)
    (hsorted : blocks.Pairwise fun a b => a.1.toNat < b.1.toNat) (hpos : ∀ rb ∈ blocks, 0 < rb.1.toNat)
    (hbytes : h.serializeBlocks blocks = .ok bytes) (hlen : bytes.length < 65534)
    (hnew : ∀ rb ∈ blocks, rb.1 ∉ g.reportBlocks)
    (hread : deserializeBlocks rounds lenLeft g (writeHtonU16 0 ++ bytes) = .ok (g', rest)) :
    ¬ ∀ rb ∈ blocks, rb.1 ∈ g'.reportBlocks := by
  intro hall
  obtain ⟨ws, starts, rfl, hheaded, hcard, hfirst⟩ := serializeBlocks_words hbytes
  obtain ⟨first, others, rfl⟩ := List.exists_cons_of_ne_nil hne
  obtain ⟨hstart, us, rfl⟩ := hfirst first rfl
  cases rounds with
  | zero => cases hread
  | succ rounds =>
    have hzero : ∀ w ∈ [(0 : UInt16)], w = 0 ∨ 0x8000 ≤ w.toNat := by simp
    have hheaded' := hheaded.append hzero
    rw [← writeWords_cons] at hread
    obtain ⟨hi, lo, count, endSeq, vs, hws, hfits, lenLeft', g1, h1, hkeys⟩ := deserializeBlocks_round hleft hread
    rw [length_writeWords] at hlen
    have hvs : writeWords (vs.drop count.toNat) =
        writeWords (([(0 : UInt16)] ++ ((first.1 >>> 16).toUInt16 :: first.1.toUInt16 :: us)).drop (4 + count.toNat)) := by
      rw [← List.drop_drop, List.singleton_append, hws]
      rfl
    rw [hvs] at h1
    have hshort : ([(0 : UInt16)] ++ ((first.1 >>> 16).toUInt16 :: first.1.toUInt16 :: us)).length < 0x8000 := by
      rw [List.length_append, List.length_singleton]
      omega
    obtain ⟨added, hadded, hkeys'⟩ := deserializeBlocks_adds hheaded' hshort h1
    -- The first head is passed, so that one head less than there are blocks is to come.
    have hfew : added.card < (first :: others).length := by
      have hpassed : [(0 : UInt16)].length + 0 + 1 < 4 + count.toNat := by
        simp only [List.length_singleton]
        omega
      have hlt := headsFrom_card_lt (Finset.mem_image_of_mem ([(0 : UInt16)].length + ·) hstart)
        (Nat.zero_le _) hpassed
      have hle : (headsFrom (starts.image ([(0 : UInt16)].length + ·)) 0).card ≤ starts.card :=
        (Finset.card_filter_le _ _).trans Finset.card_image_le
      omega
    have hhi : hi = 0 ∧ lo = (first.1 >>> 16).toUInt16 := by
      simp only [List.cons.injEq] at hws
      exact ⟨hws.1.symm, hws.2.1.symm⟩
    have hleast : ∀ rb ∈ first :: others, first.1.toNat ≤ rb.1.toNat := by
      intro rb hrb
      rcases List.mem_cons.mp hrb with rfl | hrb
      · exact le_rfl
      · exact (List.rel_of_pairwise_cons hsorted hrb).le
    have hin : ∀ rb ∈ first :: others, rb.1 ∈ added := by
      intro rb hrb
      refine (hkeys' rb.1 (hall rb hrb)).resolve_left fun hmem => ?_
      rcases hkeys rb.1 hmem with hold | ⟨hkey, -⟩
      · exact hnew rb hrb hold
      · rw [hhi.1, hhi.2] at hkey
        have hsmall := padded_ssrc_lt (hpos first List.mem_cons_self)
        rw [← hkey] at hsmall
        have := hleast rb hrb
        omega
    have hnodup : ((first :: others).map Prod.fst).Nodup := by
      refine List.Pairwise.map _ (fun a b hlt he => ?_) hsorted
      rw [he] at hlt
      exact Nat.lt_irrefl _ hlt
    have hmany : ((first :: others).map Prod.fst).toFinset.card ≤ added.card := by
      refine Finset.card_le_card fun key hkey => ?_
      rw [List.mem_toFinset, List.mem_map] at hkey
      obtain ⟨rb, hrb, rfl⟩ := hkey
      exact hin rb hrb
    rw [List.toFinset_card_of_nodup hnodup, List.length_map] at hmany
    omega

end RfbHeader

end Ns3Rmcat.Header
