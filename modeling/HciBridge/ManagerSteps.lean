import HciBridge.Manager

namespace HciBridge.Manager

open Text
open Auth (Bytes Block Psk)
open Config (Settings lookupPsk)
open KeyProtocol (Hashes)

inductive Moves (b : Board) : Act → Board → Prop
  | connect (h : b.thread = .connecting) :
      Moves b .connect { b with thread := .connected, stream := some ⟨false, false⟩ }
  | connectFailed (h : b.thread = .connecting) : Moves b .connectFailed { b with thread := .backoff }
  | tuneFailed (h : b.thread = .connected) : Moves b .tuneFailed { b with thread := .closing }
  | authenticate (h : b.thread = .connected) :
      Moves b .authenticate { b with thread := .authed, authKey := some b.psk }
  | authFailed (h : b.thread = .connected) :
      Moves b .authFailed { b with thread := .closing, authKey := some b.psk }
  | publish (h : b.thread = .authed) : Moves b .publish { b with thread := .published, link := true }
  | openVhci (h : b.thread = .published) : Moves b .openVhci { b with thread := .pumping }
  | openFailed (h : b.thread = .published) : Moves b .openFailed { b with thread := .ending }
  | pump (h : b.thread = .pumping) : Moves b .pump b
  | linkDown (h : b.thread = .pumping) : Moves b .linkDown { b with thread := .ending }
  | unpublish (h : b.thread = .ending) : Moves b .unpublish { b with thread := .closing, link := false }
  | close (h : b.thread = .closing) :
      Moves b .close
        { b with thread := .backoff, stream := b.stream.map fun st => { st with closed := true } }
  | release (h : b.thread = .backoff) : Moves b .release { b with thread := .released, released := true }
  | destroy (h : b.thread = .released) : Moves b .destroy { b.destroy with thread := .gone }

inductive Step (env : Env) (H : Hashes) (s : State) : Label → State → Prop
  | ignored (data : Bytes) (src : Option (Block 4)) (hpc : s.pc = .receive) : Step env H s (.datagram data src) s
  | heard (m : Heard) (hpc : s.pc = .receive) (hparse : Discovery.parse m.data = .ok (.announce m.ann))
      (hpermits : permits env.opts m.ann.bdaddr = true) (hpinned : m.src ∉ env.pinned) :
      Step env H s (.datagram m.data (some m.src)) { s with pc := .announced m }
  | refreshed (m : Heard) (result : Except Config.Error Settings) (now stamp : ℤ) (keys : Reload.Keys)
      (hpc : s.pc = .announced m) :
      Step env H s (.refresh result now stamp)
        { s with keys := keys, pc := .revoking (s.map.map Prod.snd) m }
  | kept (m : Heard) (result : Except Config.Error Settings) (now stamp : ℤ) (keys : Reload.Keys)
      (hpc : s.pc = .announced m) :
      Step env H s (.refresh result now stamp) { s with keys := keys, pc := .keyed m }
  | spared (id : ℕ) (rest : List ℕ) (m : Heard) (hpc : s.pc = .revoking (id :: rest) m)
      (hkey : ∀ b, s.boards[id]? = some b → (lookupPsk s.keys.entries b.bdaddr).isSome = true) :
      Step env H s .revoke { s with pc := .revoking rest m }
  | revoked (id : ℕ) (rest : List ℕ) (m : Heard) (b : Board) (hpc : s.pc = .revoking (id :: rest) m)
      (hb : s.boards[id]? = some b) (hkey : lookupPsk s.keys.entries b.bdaddr = none) :
      Step env H s .revoke
        { s.update id Board.kill with revoked := id :: s.revoked, pc := .revoking rest m }
  | revokedAll (m : Heard) (hpc : s.pc = .revoking [] m) : Step env H s .revoke { s with pc := .keyed m }
  | rejected (m : Heard) (result : Except Config.Error Settings) (now stamp : ℤ) (keys : Reload.Keys)
      (hpc : s.pc = .keyed m) :
      Step env H s (.verify result now stamp) { s with keys := keys, pc := .receive }
  | admitted (m : Heard) (psk : Psk) (result : Except Config.Error Settings) (now stamp : ℤ)
      (hpc : s.pc = .keyed m) (hkey : lookupPsk s.keys.entries m.ann.bdaddr = some psk)
      (hsig : verifies H psk m = true) (hsubnet : ∀ cidr ∈ env.subnet, cidr.contains m.src = true) :
      Step env H s (.verify result now stamp) { s with pc := .admitted m psk }
  | admittedLate (m : Heard) (psk fresh : Psk) (result : Except Config.Error Settings) (now stamp : ℤ)
      (hpc : s.pc = .keyed m) (hkey : lookupPsk s.keys.entries m.ann.bdaddr = some psk)
      (hold : verifies H psk m = false) (hfresh : freshKey env s m result now stamp = some fresh)
      (hsig : verifies H fresh m = true) (hsubnet : ∀ cidr ∈ env.subnet, cidr.contains m.src = true) :
      Step env H s (.verify result now stamp)
        { s with keys := (s.keys.refresh (reload env result) now stamp).2, pc := .admitted m psk }
  | unallocated (m : Heard) (psk : Psk) (r : Created) (hpc : s.pc = .admitted m psk) :
      Step env H s (.create r) { s with pc := .receive }
  | unnamed (m : Heard) (psk : Psk) (r : Created) (hpc : s.pc = .admitted m psk) :
      Step env H s (.create r) { s with boards := s.boards ++ [(Board.new m psk).destroy], pc := .receive }
  | created (m : Heard) (psk : Psk) (hpc : s.pc = .admitted m psk) :
      Step env H s (.create .ok)
        { s with boards := s.boards ++ [.new m psk], pc := .claiming s.boards.length m }
  | found (id old : ℕ) (m : Heard) (ctx : Board) (putFails : Bool) (hpc : s.pc = .claiming id m)
      (hctx : s.boards[id]? = some ctx) (hold : (ctx.bdaddr, old) ∈ s.map) :
      Step env H s (.claim putFails)
        { s.update old (fun b => if b.ip ≠ ctx.ip then b.kill else b) with pc := .discarding id }
  | unregistered (id : ℕ) (m : Heard) (putFails : Bool) (hpc : s.pc = .claiming id m) :
      Step env H s (.claim putFails) { s with pc := .discarding id }
  | registered (id : ℕ) (m : Heard) (ctx : Board) (putFails : Bool) (hpc : s.pc = .claiming id m)
      (hctx : s.boards[id]? = some ctx) (hnew : ∀ old, (ctx.bdaddr, old) ∉ s.map) :
      Step env H s (.claim putFails)
        { s.update id (fun b => { b with claimed := true }) with
          map := (ctx.bdaddr, id) :: s.map
          pc := .spawning id m }
  | discarded (id : ℕ) (hpc : s.pc = .discarding id) :
      Step env H s .discard { s.update id Board.destroy with pc := .receive }
  | spawned (id : ℕ) (m : Heard) (hpc : s.pc = .spawning id m) :
      Step env H s (.spawn false)
        { s.update id (fun b => { b with thread := .connecting }) with
          started := ⟨id, m.data, m.src, s.keys.entries⟩ :: s.started
          pc := .receive }
  | spawnFailed (id : ℕ) (m : Heard) (hpc : s.pc = .spawning id m) :
      Step env H s (.spawn true) { s with pc := .unspawned id }
  | gaveUp (id : ℕ) (ctx : Board) (hpc : s.pc = .unspawned id) (hctx : s.boards[id]? = some ctx) :
      Step env H s .giveUp
        { (s.update id fun b => { b with released := true }).remove ctx.bdaddr with pc := .discarding id }
  | act (id : ℕ) (a : Act) (b b' : Board) (hb : s.boards[id]? = some b) (hact : b.act a = some b')
      (ha : a ≠ .release) : Step env H s (.board id a) (s.update id fun _ => b')
  | released (id : ℕ) (b b' : Board) (hb : s.boards[id]? = some b) (hact : b.act .release = some b')
      (hfree : s.locked = false) :
      Step env H s (.board id .release) ((s.update id fun _ => b').remove b.bdaddr)

variable {env : Env} {H : Hashes} {s s' : State}

theorem act_moves {b b' : Board} {a : Act} (hact : b.act a = some b') : Moves b a b' := by
  unfold Board.act at hact
  split at hact <;> cases hact <;> constructor <;> assumption

theorem find_eq_some {bdaddr : Bytes} {id : ℕ} (h : s.find bdaddr = some id) : (bdaddr, id) ∈ s.map := by
  obtain ⟨p, hp, rfl⟩ := Option.map_eq_some_iff.mp h
  have hkey : p.1 = bdaddr := by simpa using List.find?_some hp
  exact hkey ▸ List.mem_of_find?_eq_some hp

theorem find_eq_none {bdaddr : Bytes} (h : s.find bdaddr = none) (id : ℕ) : (bdaddr, id) ∉ s.map := by
  intro hmem
  have hnone := List.find?_eq_none.mp (Option.map_eq_none_iff.mp h) _ hmem
  simp at hnone

theorem step_onDatagram (hpc : s.pc = .receive) (data : Bytes) (src : Option (Block 4)) :
    Step env H s (.datagram data src) (onDatagram env s data src) := by
  unfold onDatagram
  split
  case h_1 ann hparse =>
    split
    case isTrue => exact .ignored data src hpc
    case isFalse hpermits =>
      split
      case h_1 => exact .ignored data none hpc
      case h_2 ip =>
        split
        case isTrue => exact .ignored data (some ip) hpc
        case isFalse hpinned => exact .heard ⟨data, ip, ann⟩ hpc hparse (not_not.mp hpermits) hpinned
  case h_2 => exact .ignored data src hpc

theorem step_onRefresh {m : Heard} (hpc : s.pc = .announced m) (result : Except Config.Error Settings)
    (now stamp : ℤ) : Step env H s (.refresh result now stamp) (onRefresh env s m result now stamp) := by
  unfold onRefresh
  cases hr : (s.keys.refresh (reload env result) now stamp).1 with
  | false =>
    simp only [hr, Bool.false_eq_true, if_false]
    exact .kept m result now stamp _ hpc
  | true =>
    simp only [hr, if_true]
    exact .refreshed m result now stamp _ hpc

theorem step_revokeOne {id : ℕ} {rest : List ℕ} {m : Heard} (hpc : s.pc = .revoking (id :: rest) m) :
    Step env H s .revoke { s.revokeOne id with pc := .revoking rest m } := by
  unfold State.revokeOne
  split
  case h_1 hnone => exact .spared id rest m hpc (by simp [hnone])
  case h_2 b hb =>
    split
    case isTrue hkey => exact .spared id rest m hpc (by simpa [hb] using hkey)
    case isFalse hkey => exact .revoked id rest m b hpc hb (by simpa using hkey)

theorem admit_cases (env : Env) (t : State) (m : Heard) (psk : Psk) :
    ((∀ cidr ∈ env.subnet, cidr.contains m.src = true) ∧ t.admit env m psk = { t with pc := .admitted m psk }) ∨
      t.admit env m psk = { t with pc := .receive } := by
  unfold State.admit
  split
  case isTrue h => exact .inl ⟨by simpa [Option.all_eq_true] using h, rfl⟩
  case isFalse => exact .inr rfl

theorem step_onVerify {m : Heard} (hpc : s.pc = .keyed m) (result : Except Config.Error Settings)
    (now stamp : ℤ) : Step env H s (.verify result now stamp) (onVerify env H s m result now stamp) := by
  unfold onVerify
  split
  case h_1 => exact .rejected m result now stamp s.keys hpc
  case h_2 psk hkey =>
    split
    case isTrue hsig =>
      rcases admit_cases env s m psk with ⟨hsubnet, heq⟩ | heq
      · rw [heq]
        exact .admitted m psk result now stamp hpc hkey hsig hsubnet
      · rw [heq]
        exact .rejected m result now stamp s.keys hpc
    case isFalse hold =>
      simp only
      split
      case isTrue hany =>
        obtain ⟨fresh, hfresh, hsig⟩ := (Option.any_eq_true _ _).mp hany
        rcases admit_cases env
          { s with keys := (s.keys.refresh (reload env result) now stamp).2 } m psk with ⟨hsubnet, heq⟩ | heq
        · rw [heq]
          exact .admittedLate m psk fresh result now stamp hpc hkey (by simpa using hold) hfresh hsig hsubnet
        · rw [heq]
          exact .rejected m result now stamp _ hpc
      case isFalse => exact .rejected m result now stamp _ hpc

theorem step_onClaim {id : ℕ} {m : Heard} {ctx : Board} (hpc : s.pc = .claiming id m)
    (hctx : s.boards[id]? = some ctx) (putFails : Bool) :
    Step env H s (.claim putFails) (onClaim s id m ctx putFails) := by
  unfold onClaim
  split
  case h_1 old hold => exact .found id old m ctx putFails hpc hctx (find_eq_some hold)
  case h_2 hnone =>
    split
    case isTrue => exact .unregistered id m putFails hpc
    case isFalse => exact .registered id m ctx putFails hpc hctx (find_eq_none hnone)

theorem step_cases {l : Label} (h : step env H s l = some s') : Step env H s l s' := by
  cases l with
  | datagram data src =>
    simp only [step] at h
    split at h
    case h_1 hpc =>
      cases h
      exact step_onDatagram hpc data src
    case h_2 => cases h
  | refresh result now stamp =>
    simp only [step] at h
    split at h
    case h_1 m hpc =>
      cases h
      exact step_onRefresh hpc result now stamp
    case h_2 => cases h
  | revoke =>
    simp only [step] at h
    split at h
    case h_1 m hpc =>
      cases h
      exact .revokedAll m hpc
    case h_2 id rest m hpc =>
      cases h
      exact step_revokeOne hpc
    case h_3 => cases h
  | verify result now stamp =>
    simp only [step] at h
    split at h
    case h_1 m hpc =>
      cases h
      exact step_onVerify hpc result now stamp
    case h_2 => cases h
  | create r =>
    simp only [step] at h
    split at h
    case h_1 m psk hpc =>
      cases h
      cases r with
      | ok => exact .created m psk hpc
      | noContext => exact .unallocated m psk .noContext hpc
      | noBdaddr => exact .unnamed m psk .noBdaddr hpc
      | noName => exact .unnamed m psk .noName hpc
    case h_2 => cases h
  | claim putFails =>
    simp only [step] at h
    split at h
    case h_1 id m hpc =>
      obtain ⟨ctx, hctx, rfl⟩ := Option.map_eq_some_iff.mp h
      exact step_onClaim hpc hctx putFails
    case h_2 => cases h
  | discard =>
    simp only [step] at h
    split at h
    case h_1 id hpc =>
      cases h
      exact .discarded id hpc
    case h_2 => cases h
  | spawn fails =>
    simp only [step] at h
    split at h
    case h_1 id m hpc =>
      cases h
      cases fails with
      | false => exact .spawned id m hpc
      | true => exact .spawnFailed id m hpc
    case h_2 => cases h
  | giveUp =>
    simp only [step] at h
    split at h
    case h_1 id hpc =>
      obtain ⟨ctx, hctx, rfl⟩ := Option.map_eq_some_iff.mp h
      exact .gaveUp id ctx hpc hctx
    case h_2 => cases h
  | board id a =>
    simp only [step] at h
    split at h
    case h_1 => cases h
    case h_2 b hb =>
      obtain ⟨b', hact, hon⟩ := Option.bind_eq_some_iff.mp h
      unfold onAct at hon
      split at hon
      case isTrue ha =>
        subst ha
        split at hon
        case isTrue => cases hon
        case isFalse hlock =>
          cases hon
          exact .released id b b' hb hact (by simpa using hlock)
      case isFalse ha =>
        cases hon
        exact .act id a b b' hb hact ha

end HciBridge.Manager
