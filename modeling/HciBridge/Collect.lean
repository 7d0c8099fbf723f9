import HciBridge.DiscoveryAnnounce

/-!
`collect` of `host/cli.zig`: the boards that `list` and `update all` find in what arrives before the deadline.
It looks at no signature.
-/

namespace HciBridge.Collect

open Auth (Bytes Block ascii bdaddrText)
open DiscoveryTask (Device History Round built)

structure Msg where
  data : Bytes
  src : Block 4

structure Bridge where
  ip : Block 4
  port : ℕ
  bdaddr : Bytes
  name : Bytes
deriving DecidableEq, Repr

def collectOne (found : List Bridge) (msg : Msg) : List Bridge :=
  match Discovery.parse msg.data with
  | .ok (.announce ann) =>
    if found.any fun b => b.bdaddr = ann.bdaddr then found
    else if 17 < ann.bdaddr.length ∨ 63 < ann.name.length then found
    else found ++ [⟨msg.src, ann.port, ann.bdaddr, ann.name⟩]
  | _ => found

def collect (msgs : List Msg) : List Bridge := msgs.foldl collectOne []

def offered (msg : Msg) : Option Bridge :=
  match Discovery.parse msg.data with
  | .ok (.announce ann) =>
    if 17 < ann.bdaddr.length ∨ 63 < ann.name.length then none
    else some ⟨msg.src, ann.port, ann.bdaddr, ann.name⟩
  | _ => none

structure Firsts (heard found : List Bridge) : Prop where
  unique : found.Pairwise fun a b => a.bdaddr ≠ b.bdaddr
  order : found.Sublist heard
  first : ∀ bdaddr, found.find? (fun b => b.bdaddr = bdaddr) = heard.find? fun b => b.bdaddr = bdaddr

section Loop

variable {heard found : List Bridge} {b : Bridge} {msg : Msg} {msgs : List Msg} {bdaddr : Bytes}

theorem Firsts.known (h : Firsts heard found) (hb : (found.any fun c => c.bdaddr = b.bdaddr) = true) :
    Firsts (heard ++ [b]) found := by
  refine ⟨h.unique, h.order.trans (List.sublist_append_left _ _), fun bdaddr => ?_⟩
  rw [List.find?_append, ← h.first bdaddr]
  cases hfind : found.find? fun c => c.bdaddr = bdaddr with
  | some c => rfl
  | none =>
    have hne : b.bdaddr ≠ bdaddr := by
      rintro rfl
      obtain ⟨c, hc, hcb⟩ := List.any_eq_true.mp hb
      exact List.find?_eq_none.mp hfind c hc hcb
    simp [hne]

theorem Firsts.new (h : Firsts heard found) (hb : (found.any fun c => c.bdaddr = b.bdaddr) = false) :
    Firsts (heard ++ [b]) (found ++ [b]) := by
  have hne : ∀ c ∈ found, c.bdaddr ≠ b.bdaddr := by simpa using hb
  refine ⟨?_, h.order.append (List.Sublist.refl _), fun bdaddr => ?_⟩
  · rw [List.pairwise_append]
    refine ⟨h.unique, List.pairwise_singleton _ _, fun c hc c' hc' => ?_⟩
    rw [List.mem_singleton.mp hc']
    exact hne c hc
  · rw [List.find?_append, List.find?_append, h.first]

theorem collectOne_eq (found : List Bridge) (msg : Msg) : collectOne found msg = match offered msg with
    | none => found
    | some b => if found.any fun c => c.bdaddr = b.bdaddr then found else found ++ [b] := by
  unfold collectOne offered
  split
  case h_1 _ ann _ =>
    by_cases hlong : 17 < ann.bdaddr.length ∨ 63 < ann.name.length
    · simp only [hlong, if_true, ite_self]
    · simp only [hlong, if_false]
  case h_2 => rfl

theorem collect_firsts (msgs : List Msg) : Firsts (msgs.filterMap offered) (collect msgs) := by
  induction msgs using List.reverseRecOn with
  | nil => exact ⟨.nil, List.Sublist.refl _, fun _ => rfl⟩
  | append_singleton msgs msg ih =>
    rw [collect, List.foldl_append, List.foldl_cons, List.foldl_nil, ← collect, collectOne_eq, List.filterMap_append]
    cases hoffered : offered msg with
    | none => simpa [hoffered] using ih
    | some b =>
      simp only [List.filterMap_cons, List.filterMap_nil, hoffered]
      split
      case isTrue hb => exact ih.known hb
      case isFalse hb => exact ih.new (by simpa using hb)

end Loop

def Sent (d : Device) (h : History) (msg : Msg) : Prop :=
  (∃ r ∈ h.rounds, msg.src = r.ip) ∧
    ((∃ t, (t, msg.data) ∈ (h.task d).broadcasts) ∨ ∃ a ∈ (h.task d).answers, a.bytes = msg.data)

section Board

variable {d : Device} {h : History} {r : Round} {msg : Msg} {msgs : List Msg} {a : Bytes}

theorem parse_built (ha : built d r = some a) : ∃ sig,
    Discovery.parse a = .ok (.announce ⟨bdaddrText d.mac, d.port.toNat, d.name.text, sig⟩) := by
  simp only [built, KeyProtocol.Firmware.announceDatagram] at ha
  split at ha
  case isTrue => cases ha
  case isFalse =>
    split at ha
    case h_1 => cases ha
    case h_2 sig hsig =>
      split at ha
      case isFalse => cases ha
      case isTrue =>
        cases ha
        have htab : 9 ∉ sig := by
          unfold KeyProtocol.Firmware.announceSig at hsig
          split at hsig
          case isTrue =>
            rw [if_pos (by decide)] at hsig
            cases hsig
            decide
          case isFalse =>
            cases hsig
            exact Auth.notMem_hexlify (by decide)
        exact ⟨sig, Discovery.parse_announceText (KeyProtocol.Firmware.bdaddrText_length d.mac)
          (KeyProtocol.Firmware.notMem_bdaddrText (by decide) (by decide)) (Nat.le_of_lt_succ d.port.toNat_lt) d.name_ne
          d.name_tab htab⟩

theorem Sent.parse (hsent : Sent d h msg) : ∃ sig,
    Discovery.parse msg.data = .ok (.announce ⟨bdaddrText d.mac, d.port.toNat, d.name.text, sig⟩) := by
  rcases h.announced d with hnil | ⟨r, -, hI⟩
  · obtain ⟨⟨r, hr, -⟩, -⟩ := hsent
    rw [hnil] at hr
    cases hr
  · obtain ⟨t, ht⟩ : ∃ t, (t, msg.data) ∈ (h.task d).broadcasts := by
      rcases hsent.2 with hbroadcast | ⟨a, ha, hbytes⟩
      · exact hbroadcast
      · obtain ⟨⟨t, data⟩, hb, hdata, -⟩ := hI.answered a ha
        exact ⟨t, by rwa [← hbytes, ← hdata]⟩
    obtain ⟨r, -, -, hr⟩ := hI.sent _ ht
    exact parse_built hr

theorem Sent.offered (hsent : Sent d h msg) (hname : d.name.text.length ≤ 63) :
    offered msg = some ⟨msg.src, d.port.toNat, bdaddrText d.mac, d.name.text⟩ := by
  obtain ⟨sig, hparse⟩ := hsent.parse
  have hlen := KeyProtocol.Firmware.bdaddrText_length d.mac
  have hfits : ¬(17 < (bdaddrText d.mac).length ∨ 63 < d.name.text.length) := by omega
  simp only [Collect.offered, hparse, if_neg hfits]

theorem announce_of_offered {b : Bridge} (hb : offered msg = some b) : ∃ ann,
    Discovery.parse msg.data = .ok (.announce ann) ∧ ann.name.length ≤ 63 ∧
      b = ⟨msg.src, ann.port, ann.bdaddr, ann.name⟩ := by
  unfold offered at hb
  split at hb
  case h_1 _ ann hparse =>
    split at hb
    case isTrue => cases hb
    case isFalse hfits =>
      cases hb
      exact ⟨ann, hparse, not_lt.mp fun hlt => hfits (.inr hlt), rfl⟩
  case h_2 => cases hb

theorem mem_collect_own
    (hown : ∀ msg ∈ msgs, ∀ ann, Discovery.parse msg.data = .ok (.announce ann) → ann.bdaddr = bdaddrText d.mac →
      Sent d h msg) {b : Bridge} (hb : b ∈ collect msgs) (hbd : b.bdaddr = bdaddrText d.mac) :
    ∃ msg ∈ msgs, Sent d h msg ∧ d.name.text.length ≤ 63 ∧
      b = ⟨msg.src, d.port.toNat, bdaddrText d.mac, d.name.text⟩ := by
  obtain ⟨msg, hmsg, hoffered⟩ := List.mem_filterMap.mp ((collect_firsts msgs).order.subset hb)
  obtain ⟨ann, hparse, hname, rfl⟩ := announce_of_offered hoffered
  have hsent := hown msg hmsg ann hparse hbd
  obtain ⟨sig, hparse'⟩ := hsent.parse
  cases hparse.symm.trans hparse'
  exact ⟨msg, hmsg, hsent, hname, rfl⟩

end Board
theorem boards_found (d : Device) (h : History) (msgs : List Msg)
    (hown : ∀ msg ∈ msgs, ∀ ann, Discovery.parse msg.data = .ok (.announce ann) → ann.bdaddr = bdaddrText d.mac →
      Sent d h msg) :
    Firsts (msgs.filterMap offered) (collect msgs) ∧
    ((∃ b ∈ collect msgs, b.bdaddr = bdaddrText d.mac) ↔
      (∃ msg ∈ msgs, Sent d h msg) ∧ d.name.text.length ≤ 63) ∧
    ∀ b ∈ collect msgs, b.bdaddr = bdaddrText d.mac →
      b.port = d.port.toNat ∧ b.name = d.name.text ∧ ∃ r ∈ h.rounds, b.ip = r.ip := by
  have hfirsts := collect_firsts msgs
  refine ⟨hfirsts, ⟨?_, ?_⟩, ?_⟩
  · rintro ⟨b, hb, hbd⟩
    obtain ⟨msg, hmsg, hsent, hname, -⟩ := mem_collect_own hown hb hbd
    exact ⟨⟨msg, hmsg, hsent⟩, hname⟩
  · rintro ⟨⟨msg, hmsg, hsent⟩, hname⟩
    have hmem := List.mem_filterMap.mpr ⟨msg, hmsg, hsent.offered hname⟩
    have hfound : ((collect msgs).find? fun b => b.bdaddr = bdaddrText d.mac).isSome = true := by
      rw [hfirsts.first, List.find?_isSome]
      exact ⟨_, hmem, decide_eq_true rfl⟩
    obtain ⟨b, hb, hbd⟩ := List.find?_isSome.mp hfound
    exact ⟨b, hb, of_decide_eq_true hbd⟩
  · intro b hb hbd
    obtain ⟨msg, -, hsent, -, rfl⟩ := mem_collect_own hown hb hbd
    exact ⟨rfl, rfl, hsent.1⟩

section Vector

open DiscoveryTask (vectorDevice sevenProbes probeRound)

def sixAnswers : List Msg := (sevenProbes.task vectorDevice).answers.map fun a => ⟨a.bytes, .fill 4 9⟩

theorem boards_found_once : (∃ b ∈ collect sixAnswers, b.bdaddr = bdaddrText vectorDevice.mac) ∧
    sixAnswers.length = 6 := by
  refine ⟨(boards_found vectorDevice sevenProbes sixAnswers fun msg hmsg _ _ _ => ?_).2.1.mpr ⟨?_, by decide⟩,
    by decide +kernel⟩
  · obtain ⟨a, ha, rfl⟩ := List.mem_map.mp hmsg
    exact ⟨⟨probeRound 10, by simp [sevenProbes], rfl⟩, .inr ⟨a, ha, rfl⟩⟩
  · have hne : (sevenProbes.task vectorDevice).answers ≠ [] := by decide +kernel
    obtain ⟨a, ha⟩ := List.exists_mem_of_ne_nil _ hne
    exact ⟨_, List.mem_map_of_mem ha, ⟨probeRound 10, by simp [sevenProbes], rfl⟩, .inr ⟨a, ha, rfl⟩⟩

end Vector

end HciBridge.Collect
