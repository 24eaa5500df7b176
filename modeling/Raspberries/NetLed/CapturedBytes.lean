import Raspberries.NetLed.Classify

/-!
# Reading inside the captured bytes

Of a frame only the first `caplen` bytes are there.  `p2f_arp` and `p2f_nonip` ask for
`caplen` before they read the type; `p2f_icmp` and `p2f_udp` read up to byte 33 without
asking, and `p2f_icmp` is the first to see every frame.

`inside_captured_iff`: the handlers stay inside exactly if 34 bytes were captured.  A
short frame that is not IP passes the filter and is read behind its end
(`eapol_read_behind_end`).
-/

namespace Raspberries.NetLed

def Frame.captured (f : Frame) : Mem := fun i => if i < f.caplen then some (f.byte i) else none

/-- Neither `p2f_callbacks`, whatever the counters are, nor a handler of the table by itself
reads behind the captured bytes. -/
def InsideCaptured (f : Frame) : Prop :=
  (∀ count : Nat → Nat, (p2fCallbacks f.hdr f.captured (withCounts count p2f)).isSome) ∧
    ∀ e ∈ p2f, (e.cb f.hdr f.captured).isSome

section Handlers

variable {f : Frame}

theorem captured_eq {i n : Nat} (hlen : n ≤ f.caplen) (hi : i < n) :
    f.captured i = some (f.byte i) := if_pos (Nat.lt_of_lt_of_le hi hlen)

/-- `linkhdrlen` and 20 bytes of an IPv4 header are read, the last byte of the destination
among them. -/
theorem p2fProto_isSome (proto : Nat) :
    (p2fProto proto f.hdr f.captured).isSome ↔ 34 ≤ f.caplen := by
  refine ⟨?_, ?_⟩
  · intro h
    by_contra hshort
    have hlast : f.captured 33 = none := if_neg (by omega)
    have hnone : inAddrAt f.captured (linkhdrlen + 16) = none := by
      rw [inAddrAt, linkhdrlen, sizeofEtherHeader]
      simp [hlast]
    obtain ⟨v, hv⟩ := Option.isSome_iff_exists.mp h
    simp only [p2fProto, Option.bind_eq_bind, Option.bind_eq_some_iff] at hv
    obtain ⟨_, -, _, hdst, -⟩ := hv
    rw [hnone] at hdst
    cases hdst
  · intro hlen
    have hat : ∀ i < 34, f.captured i = some (f.byte i) := fun i hi => captured_eq hlen hi
    have haddr : ∀ off, off + 4 ≤ 34 → (inAddrAt f.captured off).isSome := by
      intro off hoff
      rw [inAddrAt]
      simp [hat off (by omega), hat (off + 1) (by omega), hat (off + 2) (by omega),
        hat (off + 3) (by omega)]
    obtain ⟨src, hsrc⟩ := Option.isSome_iff_exists.mp (haddr (linkhdrlen + 12) (by decide))
    obtain ⟨dst, hdst⟩ := Option.isSome_iff_exists.mp (haddr (linkhdrlen + 16) (by decide))
    rw [p2fProto, hsrc, hdst, hat linkhdrlen (by decide), hat (linkhdrlen + 9) (by decide)]
    rfl

theorem etherTypeAt_captured (hlen : sizeofEtherHeader ≤ f.caplen) :
    etherTypeAt f.captured = some f.etherType := by
  rw [etherTypeAt, ntohsAt, captured_eq hlen (by decide), captured_eq hlen (by decide)]
  rfl

theorem p2fArp_isSome : (p2fArp f.hdr f.captured).isSome := by
  rw [p2fArp]
  split
  next hlen =>
    rw [etherTypeAt_captured hlen]
    rfl
  next => rfl

theorem p2fNonip_isSome : (p2fNonip f.hdr f.captured).isSome := by
  rw [p2fNonip]
  split
  next hlen =>
    rw [etherTypeAt_captured hlen]
    rfl
  next => rfl

theorem handlers_isSome (count : Nat → Nat) (hlen : 34 ≤ f.caplen) :
    ∀ e ∈ withCounts count p2f, (e.cb f.hdr f.captured).isSome := by
  intro e he
  obtain hcb | hcb | hcb | hcb := cb_withCounts count he
  · exact hcb ▸ (p2fProto_isSome ipprotoIcmp).mpr hlen
  · exact hcb ▸ (p2fProto_isSome ipprotoUdp).mpr hlen
  · exact hcb ▸ p2fArp_isSome
  · exact hcb ▸ p2fNonip_isSome

theorem p2fCallbacks_isSome {packethdr : PcapPkthdr} {packetptr : Mem} {t : List PcapToFile}
    (h : ∀ e ∈ t, (e.cb packethdr packetptr).isSome) :
    (p2fCallbacks packethdr packetptr t).isSome := by
  have hverdict : ∀ e ∈ t, e.cb packethdr packetptr = some ((e.cb packethdr packetptr).getD 0) := by
    intro e he
    obtain ⟨v, hv⟩ := Option.isSome_iff_exists.mp (h e he)
    rw [hv]
    rfl
  rw [@p2fCallbacks_eq _ _ (fun e => (e.cb packethdr packetptr).getD 0) t hverdict]
  rfl

theorem first_isSome {packethdr : PcapPkthdr} {packetptr : Mem} {e : PcapToFile}
    {es : List PcapToFile} (h : (p2fCallbacks packethdr packetptr (e :: es)).isSome) :
    (e.cb packethdr packetptr).isSome := by
  rw [p2fCallbacks] at h
  cases hverdict : e.cb packethdr packetptr with
  | none =>
    rw [hverdict] at h
    cases h
  | some v => rfl

/-- **The handlers stay inside the captured bytes** exactly if these are at least 34. -/
theorem inside_captured_iff (f : Frame) : InsideCaptured f ↔ 34 ≤ f.caplen := by
  refine ⟨?_, ?_⟩
  · intro h
    exact (p2fProto_isSome ipprotoIcmp).mp (first_isSome (h.1 fun _ => 0))
  · intro hlen
    exact ⟨fun count => p2fCallbacks_isSome (handlers_isSome count hlen),
      handlers_isSome (fun _ => 0) hlen⟩

end Handlers

/-- An EAPOL start frame, as the station that sends it captures it. -/
def eapolStart : Frame :=
  Frame.ofBytes [1, 128, 194, 0, 0, 3, 0, 18, 34, 51, 68, 85, 136, 142, 1, 1, 0, 0]

/-- The frame has 18 bytes and passes the filter `(!ip)`. -/
theorem eapol_read_behind_end :
    ¬ ∀ f : Frame, sizeofEtherHeader ≤ f.caplen → Matched f → InsideCaptured f := by
  intro h
  have hmatch : Matched eapolStart :=
    ⟨_, List.getElem_mem (show 3 < p2f.length by decide), by decide⟩
  have hinside := h eapolStart (by decide) hmatch
  exact absurd ((p2fProto_isSome ipprotoIcmp).mp (first_isSome (hinside.1 fun _ => 0))) (by decide)

end Raspberries.NetLed
