import Raspberries.NetLed.Sniffer

/-!
# Which entry a packet is charged to

The filters of the table, read as libpcap reads them, ask for the type of the frame
first.  `p2f_icmp` and `p2f_udp` do not: they take byte 23 for the protocol of an IPv4
header, which in an ARP packet belongs to the address of the sender and in an IPv6
header to the source.  `arp_charged_to_udp` is an ARP request that makes the wrong
light blink.

`classified_iff` says for which frames the handlers and the filters agree.
-/

namespace Raspberries.NetLed

/-- A captured frame: its first `caplen` bytes, and what lies behind them in the memory. -/
structure Frame where
  caplen : Nat
  byte : Nat → BitVec 8

namespace Frame

def mem (f : Frame) : Mem := fun i => some (f.byte i)

def hdr (f : Frame) : PcapPkthdr := ⟨f.caplen⟩

def etherType (f : Frame) : Nat := 256 * (f.byte 12).toNat + (f.byte 13).toNat

def protocol (f : Frame) : Nat := (f.byte 23).toNat

def nextHeader (f : Frame) : Nat := (f.byte 20).toNat

/-- How many bytes the headers of a frame of this type need. -/
def headersLength (f : Frame) : Nat :=
  sizeofEtherHeader +
    (if f.etherType = ethertypeIp then 20
      else if f.etherType = ethertypeIpv6 then 40
      else if f.etherType = ethertypeArp then 28
      else 0)

end Frame

/-- What libpcap accepts with one of the four filters. -/
def bpfAccepts (bpfStr : List Char) (f : Frame) : Bool :=
  if bpfStr = "icmp".toList then
    decide (f.etherType = ethertypeIp ∧ f.protocol = ipprotoIcmp)
  else if bpfStr = "udp".toList then
    decide ((f.etherType = ethertypeIp ∧ f.protocol = ipprotoUdp) ∨
      (f.etherType = ethertypeIpv6 ∧ f.nextHeader = ipprotoUdp))
  else if bpfStr = "arp".toList then decide (f.etherType = ethertypeArp)
  else if bpfStr = "(!ip)".toList then decide (f.etherType ≠ ethertypeIp)
  else false

/-- The first entry of the table whose filter the frame matches. -/
def firstMatch (f : Frame) (t : List PcapToFile) : Option Nat :=
  t.findIdx? fun e => bpfAccepts e.bpfStr f

def Matched (f : Frame) : Prop := ∃ e ∈ p2f, bpfAccepts e.bpfStr f = true

/-- Whatever the counters are, `p2f_callbacks` returns 1 and charges the first entry whose
filter the frame matches, and only that one. -/
def Classified (f : Frame) : Prop :=
  ∀ count : Nat → Nat, ∃ i, firstMatch f (withCounts count p2f) = some i ∧
    p2fCallbacks f.hdr f.mem (withCounts count p2f) =
      some (1, (withCounts count p2f).modify i PcapToFile.charge)

/-- Byte 23 is the protocol of an IPv4 header, or it does not look like one that the
handlers ask for, or the mistake does no harm: UDP over IPv6 is charged to the entry of
UDP as well. -/
def Frame.ProtocolByteAgrees (f : Frame) : Prop :=
  f.etherType = ethertypeIp ∨
  (f.etherType = ethertypeIpv6 ∧ f.nextHeader = ipprotoUdp ∧ f.protocol = ipprotoUdp) ∨
  (f.etherType ≠ ethertypeIp ∧ f.etherType ≠ ethertypeIpv6 ∧
    f.protocol ≠ ipprotoIcmp ∧ f.protocol ≠ ipprotoUdp)

/-! ### The verdicts of the handlers -/

/-- The `int` that an entry's handler returns for a frame. -/
def verdict (f : Frame) (e : PcapToFile) : Int := (e.cb f.hdr f.mem).getD 0

theorem p2fProto_frame (proto : Nat) (f : Frame) :
    p2fProto proto f.hdr f.mem = some (if f.protocol = proto then 1 else 0) := rfl

theorem p2fArp_frame {f : Frame} (hlen : sizeofEtherHeader ≤ f.caplen) :
    p2fArp f.hdr f.mem = some (if f.etherType = ethertypeArp then 1 else 0) := by
  rw [p2fArp, if_pos (show sizeofEtherHeader ≤ f.hdr.caplen from hlen)]
  rfl

theorem p2fNonip_frame {f : Frame} (hlen : sizeofEtherHeader ≤ f.caplen) :
    p2fNonip f.hdr f.mem =
      some (if f.etherType = ethertypeArp ∨ f.etherType = ethertypeIp ∨
        f.etherType = ethertypeIpv6 then 0 else 1) := by
  rw [p2fNonip, if_pos (show sizeofEtherHeader ≤ f.hdr.caplen from hlen)]
  rfl

theorem sizeofEtherHeader_le_headersLength (f : Frame) : sizeofEtherHeader ≤ f.headersLength :=
  Nat.le_add_right _ _

/-! ### What the filters accept -/

section Filters

variable (f : Frame)

theorem bpfAccepts_icmp : bpfAccepts "icmp".toList f =
    decide (f.etherType = ethertypeIp ∧ f.protocol = ipprotoIcmp) := by
  rw [bpfAccepts, if_pos rfl]

theorem bpfAccepts_udp : bpfAccepts "udp".toList f =
    decide ((f.etherType = ethertypeIp ∧ f.protocol = ipprotoUdp) ∨
      (f.etherType = ethertypeIpv6 ∧ f.nextHeader = ipprotoUdp)) := by
  rw [bpfAccepts, if_neg (by decide), if_pos rfl]

theorem bpfAccepts_arp : bpfAccepts "arp".toList f = decide (f.etherType = ethertypeArp) := by
  rw [bpfAccepts, if_neg (by decide), if_neg (by decide), if_pos rfl]

theorem bpfAccepts_notIp : bpfAccepts "(!ip)".toList f = decide (f.etherType ≠ ethertypeIp) := by
  rw [bpfAccepts, if_neg (by decide), if_neg (by decide), if_neg (by decide), if_pos rfl]

end Filters

/-! ### The first entry -/

section FirstEntry

variable (f : Frame) (count : Nat → Nat)

def firstTaken : Option Nat :=
  if f.protocol = ipprotoIcmp then some 0
  else if f.protocol = ipprotoUdp then some 1
  else if f.etherType = ethertypeArp then some 2
  else if f.etherType = ethertypeIp ∨ f.etherType = ethertypeIpv6 then none
  else some 3

def firstAccepting : Option Nat :=
  if f.etherType = ethertypeIp then
    if f.protocol = ipprotoIcmp then some 0
    else if f.protocol = ipprotoUdp then some 1
    else none
  else if f.etherType = ethertypeIpv6 ∧ f.nextHeader = ipprotoUdp then some 1
  else if f.etherType = ethertypeArp then some 2
  else some 3

theorem withCounts_p2f : withCounts count p2f =
    [⟨"icmp".toList, p2fIcmp, count 0⟩,
      ⟨"udp".toList, p2fUdp, count 1⟩,
      ⟨"arp".toList, p2fArp, count 2⟩,
      ⟨"(!ip)".toList, p2fNonip, count 3⟩] := rfl

theorem cb_withCounts {e : PcapToFile} (he : e ∈ withCounts count p2f) :
    e.cb = p2fIcmp ∨ e.cb = p2fUdp ∨ e.cb = p2fArp ∨ e.cb = p2fNonip := by
  rw [withCounts_p2f] at he
  simp only [List.mem_cons, List.not_mem_nil, or_false] at he
  obtain rfl | rfl | rfl | rfl := he
  · exact .inl rfl
  · exact .inr (.inl rfl)
  · exact .inr (.inr (.inl rfl))
  · exact .inr (.inr (.inr rfl))

theorem firstMatch_withCounts : firstMatch f (withCounts count p2f) = firstAccepting f := by
  rw [firstMatch, withCounts_p2f, firstAccepting]
  simp only [List.findIdx?_cons, List.findIdx?_nil, bpfAccepts_icmp, bpfAccepts_udp,
    bpfAccepts_arp, bpfAccepts_notIp, ethertypeIp, ethertypeIpv6, ethertypeArp, ipprotoIcmp,
    ipprotoUdp]
  by_cases hip : f.etherType = 0x0800
  · by_cases hicmp : f.protocol = 1
    · simp [hip, hicmp]
    · by_cases hudp : f.protocol = 17
      · simp [hip, hudp]
      · simp [hip, hicmp, hudp]
  · by_cases hudp : f.etherType = 0x86DD ∧ f.nextHeader = 17
    · simp [hudp]
    · by_cases harp : f.etherType = 0x0806
      · simp [harp]
      · simp [hip, hudp, harp]

theorem p2fCallbacks_withCounts (hlen : sizeofEtherHeader ≤ f.caplen) :
    p2fCallbacks f.hdr f.mem (withCounts count p2f) =
      some (charged (withCounts count p2f) (firstTaken f)) := by
  have hverdict : ∀ e ∈ withCounts count p2f, e.cb f.hdr f.mem = some (verdict f e) := by
    intro e he
    rw [verdict]
    obtain hcb | hcb | hcb | hcb := cb_withCounts count he
    · rw [hcb, p2fIcmp, p2fProto_frame, Option.getD_some]
    · rw [hcb, p2fUdp, p2fProto_frame, Option.getD_some]
    · rw [hcb, p2fArp_frame hlen, Option.getD_some]
    · rw [hcb, p2fNonip_frame hlen, Option.getD_some]
  have hfirst : (withCounts count p2f).findIdx? (fun e => decide (verdict f e ≠ 0)) =
      firstTaken f := by
    rw [withCounts_p2f, firstTaken]
    simp only [List.findIdx?_cons, List.findIdx?_nil, verdict, p2fIcmp, p2fUdp, p2fProto_frame,
      p2fArp_frame hlen, p2fNonip_frame hlen, Option.getD_some]
    by_cases hicmp : f.protocol = ipprotoIcmp
    · simp [hicmp]
    · by_cases hudp : f.protocol = ipprotoUdp
      · simp [hudp]
      · by_cases harp : f.etherType = ethertypeArp
        · simp [hicmp, hudp, harp]
        · by_cases hip : f.etherType = ethertypeIp ∨ f.etherType = ethertypeIpv6
          · simp [hicmp, hudp, harp, hip]
          · simp [hicmp, hudp, harp, hip]
  rw [p2fCallbacks_eq hverdict, hfirst]

end FirstEntry

theorem firstAccepting_lt {f : Frame} {i : Nat} (h : firstAccepting f = some i) : i < 4 := by
  rw [← firstMatch_withCounts f fun _ => 0] at h
  exact (List.findIdx?_eq_some_iff_getElem.mp h).1

theorem matched_iff {f : Frame} : Matched f ↔ firstAccepting f ≠ none := by
  rw [← firstMatch_withCounts f fun _ => 0, firstMatch, Ne, List.findIdx?_eq_none_iff, Matched]
  show (∃ e ∈ p2f, bpfAccepts e.bpfStr f = true) ↔
    ¬ ∀ e ∈ p2f, bpfAccepts e.bpfStr f = false
  simp

/-- A frame is classified exactly if its filter and its handler come to the same entry. -/
theorem classified_iff_firstTaken {f : Frame} (hlen : sizeofEtherHeader ≤ f.caplen) :
    Classified f ↔ firstAccepting f ≠ none ∧ firstTaken f = firstAccepting f := by
  refine ⟨?_, ?_⟩
  · intro h
    obtain ⟨i, haccepts, hcharged⟩ := h fun _ => 0
    rw [firstMatch_withCounts] at haccepts
    rw [p2fCallbacks_withCounts f _ hlen] at hcharged
    have hpair := Option.some.inj hcharged
    rw [haccepts]
    refine ⟨Option.some_ne_none i, ?_⟩
    cases htaken : firstTaken f with
    | none =>
      rw [htaken] at hpair
      have hret : (0 : Int) = 1 := congrArg Prod.fst hpair
      exact absurd hret (by decide)
    | some j =>
      rw [htaken] at hpair
      -- every counter is below 4, so that the table shows which entry was charged
      have hlt : i < (withCounts (fun _ => 0) p2f).length := firstAccepting_lt haccepts
      have hcount : (withCounts (fun _ => 0) p2f)[i].blinkCount < 4 := by simp [withCounts]
      have htable := congrArg Prod.snd hpair
      rw [modify_charge_inj (List.getElem?_eq_getElem hlt) hcount htable.symm]
  · intro h count
    obtain ⟨i, hi⟩ := Option.ne_none_iff_exists'.mp h.1
    refine ⟨i, ?_, ?_⟩
    · rw [firstMatch_withCounts, hi]
    · rw [p2fCallbacks_withCounts f count hlen, h.2, hi]
      rfl

/-- Where a filter accepts the frame, the handlers come to the same entry exactly if byte 23
agrees. -/
theorem firstTaken_eq_iff {f : Frame} (hmatch : firstAccepting f ≠ none) :
    firstTaken f = firstAccepting f ↔ f.ProtocolByteAgrees := by
  rw [firstAccepting] at hmatch
  rw [firstTaken, firstAccepting, Frame.ProtocolByteAgrees]
  simp only [ethertypeIp, ethertypeIpv6, ethertypeArp, ipprotoIcmp, ipprotoUdp] at hmatch ⊢
  by_cases hip : f.etherType = 0x0800
  · -- no filter but those of ICMP and UDP accepts an IPv4 packet
    by_cases hicmp : f.protocol = 1
    · simp [hip, hicmp]
    · by_cases hudp : f.protocol = 17
      · simp [hip, hudp]
      · simp [hip, hicmp, hudp] at hmatch
  · by_cases hipv6 : f.etherType = 0x86DD
    · by_cases hnext : f.nextHeader = 17
      · by_cases hicmp : f.protocol = 1
        · simp [hipv6, hnext, hicmp]
        · by_cases hudp : f.protocol = 17
          · simp [hipv6, hnext, hudp]
          · simp [hipv6, hnext, hicmp, hudp]
      · -- no handler takes it for what it is
        by_cases hicmp : f.protocol = 1
        · simp [hipv6, hnext, hicmp]
        · by_cases hudp : f.protocol = 17
          · simp [hipv6, hnext, hudp]
          · simp [hipv6, hnext, hicmp, hudp]
    · by_cases hicmp : f.protocol = 1
      · by_cases harp : f.etherType = 0x0806
        · simp [harp, hicmp]
        · simp [hip, hipv6, harp, hicmp]
      · by_cases hudp : f.protocol = 17
        · by_cases harp : f.etherType = 0x0806
          · simp [harp, hudp]
          · simp [hip, hipv6, harp, hudp]
        · by_cases harp : f.etherType = 0x0806
          · simp [harp, hicmp, hudp]
          · simp [hip, hipv6, harp, hicmp, hudp]

/-- **Which frames are classified.**  Of the frames that hold their headers and match a
filter, exactly those are charged to the entry of their filter in which byte 23 agrees. -/
theorem classified_iff (f : Frame) (hlong : f.headersLength ≤ f.caplen) (hmatch : Matched f) :
    Classified f ↔ f.ProtocolByteAgrees := by
  have hlen := Nat.le_trans (sizeofEtherHeader_le_headersLength f) hlong
  have haccepts := matched_iff.mp hmatch
  rw [classified_iff_firstTaken hlen, firstTaken_eq_iff haccepts]
  exact and_iff_right haccepts

def Frame.ofBytes (bs : List Nat) : Frame :=
  ⟨bs.length, fun i => BitVec.ofNat 8 (bs.getD i 0)⟩

/-- An ARP request, sent to all from the address `00:sndr:22:33:44:55`. -/
def arpRequest (sndr : Nat) : Frame :=
  Frame.ofBytes
    [255, 255, 255, 255, 255, 255, 0, sndr, 34, 51, 68, 85, 8, 6,
      0, 1, 8, 0, 6, 4, 0, 1, 0, sndr, 34, 51, 68, 85, 192, 168, 0, 2,
      0, 0, 0, 0, 0, 0, 192, 168, 0, 1]

theorem matched_arpRequest (sndr : Nat) : Matched (arpRequest sndr) :=
  ⟨_, List.getElem_mem (show 2 < p2f.length by decide), rfl⟩

theorem classified_arp :
    (arpRequest 18).headersLength ≤ (arpRequest 18).caplen ∧ Matched (arpRequest 18) ∧
    (arpRequest 18).ProtocolByteAgrees ∧ Classified (arpRequest 18) := by
  have hlong : (arpRequest 18).headersLength ≤ (arpRequest 18).caplen := by decide
  have hmatch := matched_arpRequest 18
  have hagrees : (arpRequest 18).ProtocolByteAgrees := .inr (.inr (by decide))
  exact ⟨hlong, hmatch, hagrees, (classified_iff _ hlong hmatch).mpr hagrees⟩

/-- The second byte of the sender's address is 17: the request is charged to UDP. -/
theorem arp_charged_to_udp :
    ¬ ∀ f : Frame, f.headersLength ≤ f.caplen → Matched f → Classified f := by
  intro h
  have hmatch := matched_arpRequest 17
  obtain ⟨i, hfirst, hcharged⟩ := h (arpRequest 17) (by decide) hmatch fun _ => 0
  have hi : i = 2 := by
    have hfirst' : firstMatch (arpRequest 17) (withCounts (fun _ => 0) p2f) = some 2 := by decide
    exact Option.some.inj (hfirst.symm.trans hfirst')
  have hcounts := congrArg
    (fun r => r.map fun r => r.2.map PcapToFile.blinkCount) hcharged
  rw [hi] at hcounts
  exact absurd hcounts (by decide)

end Raspberries.NetLed
