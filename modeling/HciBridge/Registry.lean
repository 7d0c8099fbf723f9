import HciBridge.KeyProtocolAgrees
import HciBridge.ManagerSteps

namespace HciBridge.Manager

open Text
open Auth (Bytes Block Psk ascii hexlify)
open Config (Settings lookupPsk)
open KeyProtocol (Hashes)

namespace Thread

def linked : Thread → Bool
  | published | pumping | ending => true
  | _ => false

def onStream : Thread → Bool
  | connected | authed | published | pumping | ending | closing => true
  | _ => false

/-- Started, and the entry not released yet. -/
def running : Thread → Bool
  | absent | released | gone => false
  | _ => true

/-- Started, and its context not destroyed yet. -/
def alive : Thread → Bool
  | absent | gone => false
  | _ => true

end Thread

namespace Pc

def held : Pc → Option ℕ
  | claiming id _ | discarding id | spawning id _ | unspawned id => some id
  | _ => none

def entering : Pc → Option ℕ
  | spawning id _ | unspawned id => some id
  | _ => none

def walk : Pc → List ℕ
  | revoking rest _ => rest
  | _ => []

end Pc

structure Wired (b : Board) : Prop where
  link : b.link = b.thread.linked
  opened : b.thread.onStream = true → ∃ st, b.stream = some st ∧ st.closed = false

structure Own (pc : Pc) (id : ℕ) (b : Board) : Prop where
  alone : pc.held = some id → b.thread = .absent
  destroyed : b.destroyed = if pc.held = some id ∨ b.thread.alive = true then 0 else 1
  entered : (b.claimed = true ∧ b.released = false) ↔ (pc.entering = some id ∨ b.thread.running = true)
  fresh : ∀ m, pc = .claiming id m → b.released = false

def InMap (boards : List Board) (bd : Bytes) (id : ℕ) : Prop :=
  ∃ b, boards[id]? = some b ∧ b.claimed = true ∧ b.released = false ∧ b.bdaddr = bd

structure Registry (pc : Pc) (map : List (Bytes × ℕ)) (boards : List Board) : Prop where
  own : ∀ {id : ℕ} {b : Board}, boards[id]? = some b → Own pc id b
  wired : ∀ {id : ℕ} {b : Board}, boards[id]? = some b → Wired b
  held : ∀ id, pc.held = some id → id < boards.length
  entries : ∀ bd id, (bd, id) ∈ map ↔ InMap boards bd id
  unique : (map.map Prod.fst).Nodup
  walk : ∀ id ∈ pc.walk, ∃ bd, (bd, id) ∈ map

section Boards

variable {b b' : Board} {a : Act}

theorem Wired.act (h : Wired b) (hact : b.act a = some b') : Wired b' := by
  obtain ⟨hlink, hopened⟩ := h
  cases act_moves hact <;> constructor <;> simp_all [Thread.linked, Thread.onStream, Board.destroy]

theorem act_frame (hact : b.act a = some b') :
    b'.bdaddr = b.bdaddr ∧ b'.ip = b.ip ∧ b'.port = b.port ∧ b'.psk = b.psk ∧ b'.claimed = b.claimed := by
  cases act_moves hact <;> exact ⟨rfl, rfl, rfl, rfl, rfl⟩

theorem act_released (hact : b.act a = some b') (ha : a ≠ .release) : b'.released = b.released := by
  cases act_moves hact with
  | release => exact absurd rfl ha
  | _ => rfl

theorem act_present (hact : b.act a = some b') : b.thread ≠ .absent ∧ b'.thread ≠ .absent := by
  cases act_moves hact <;> simp_all

theorem act_running (hact : b.act a = some b') (ha : a ≠ .release) : b'.thread.running = b.thread.running := by
  cases act_moves hact with
  | release => exact absurd rfl ha
  | pump => rfl
  | _ h => simp [h, Thread.running]

theorem act_destroyed (hact : b.act a = some b') :
    b.thread.alive = true ∧ b'.destroyed = b.destroyed + if b'.thread.alive then 0 else 1 := by
  cases act_moves hact <;> simp_all [Thread.alive, Board.destroy]

theorem release_spec (hact : b.act .release = some b') :
    b.thread = .backoff ∧ b' = { b with thread := .released, released := true } := by
  cases act_moves hact with
  | release h => exact ⟨h, rfl⟩

end Boards

section Registry

variable {pc pc' : Pc} {map : List (Bytes × ℕ)} {boards : List Board} {i j : ℕ} {b b' : Board}
  {f : Board → Board} {bd : Bytes}

theorem Pc.held_of_entering (h : pc.entering = some i) : pc.held = some i := by
  cases pc <;> simp_all [Pc.entering, Pc.held]

theorem Own.other (h : Own pc j b) (hpc : pc.held ≠ some j) (hpc' : pc'.held ≠ some j) : Own pc' j b := by
  have henter : pc.entering ≠ some j := fun he => hpc (Pc.held_of_entering he)
  have henter' : pc'.entering ≠ some j := fun he => hpc' (Pc.held_of_entering he)
  refine ⟨fun hheld => absurd hheld hpc', ?_, ?_, ?_⟩
  · simpa only [hpc, hpc', false_or] using h.destroyed
  · simpa only [henter, henter', false_or] using h.entered
  · rintro m rfl
    exact absurd rfl hpc'

theorem Own.undestroyed (h : Own pc j b) (hheld : pc.held = some j) : b.destroyed = 0 := by
  rw [h.destroyed, if_pos (.inl hheld)]

theorem Own.goto (h : Own pc j b) (hheld : pc'.held = pc.held) (henter : pc'.entering = pc.entering)
    (hclaim : ∀ id m, pc' ≠ .claiming id m) : Own pc' j b := by
  refine ⟨fun hh => h.alone (hheld ▸ hh), ?_, ?_, fun m hm => absurd hm (hclaim j m)⟩
  · rw [hheld]
    exact h.destroyed
  · rw [henter]
    exact h.entered

theorem board_of_modify (h : (boards.modify i f)[j]? = some b') :
    ∃ b, boards[j]? = some b ∧ b' = if i = j then f b else b := by
  rw [List.getElem?_modify] at h
  obtain ⟨b, hb, rfl⟩ := Option.map_eq_some_iff.mp h
  exact ⟨b, hb, rfl⟩

theorem modify_same (h : boards[i]? = some b) : (boards.modify i f)[i]? = some (f b) := by
  simp [h]

theorem board_of_append (h : (boards ++ [b])[i]? = some b') :
    boards[i]? = some b' ∨ i = boards.length ∧ b' = b := by
  rcases Nat.lt_or_ge i boards.length with hlt | hge
  · exact .inl (by rwa [List.getElem?_append_left hlt] at h)
  · rw [List.getElem?_append_right hge, List.getElem?_singleton] at h
    split at h
    case isTrue h0 =>
      cases h
      exact .inr ⟨by omega, rfl⟩
    case isFalse => cases h

theorem inMap_modify (hframe : ∀ b, boards[i]? = some b →
      (f b).claimed = b.claimed ∧ (f b).released = b.released ∧ (f b).bdaddr = b.bdaddr) (bd : Bytes) (j : ℕ) :
    InMap (boards.modify i f) bd j ↔ InMap boards bd j := by
  by_cases hij : i = j
  · subst hij
    constructor
    · rintro ⟨b', hb', hin⟩
      obtain ⟨b, hb, rfl⟩ := board_of_modify hb'
      simp only [if_true, hframe b hb] at hin
      exact ⟨b, hb, hin⟩
    · rintro ⟨b, hb, hin⟩
      exact ⟨f b, modify_same hb, by simpa only [hframe b hb] using hin⟩
  · rw [InMap, InMap, List.getElem?_modify_ne _ _ hij]

theorem Registry.entry_unique (h : Registry pc map boards) (hi : (bd, i) ∈ map) (hj : (bd, j) ∈ map) : i = j :=
  congrArg Prod.snd (List.inj_on_of_nodup_map h.unique hi hj rfl)

theorem Registry.change {map' : List (Bytes × ℕ)} (h : Registry pc map boards)
    (hboard : ∀ b, boards[i]? = some b → Own pc' i (f b) ∧ Wired (f b))
    (hother : ∀ j b, j ≠ i → boards[j]? = some b → Own pc' j b)
    (hheld : ∀ id, pc'.held = some id → id < boards.length)
    (hentries : ∀ bd id, (bd, id) ∈ map' ↔ InMap (boards.modify i f) bd id)
    (hunique : (map'.map Prod.fst).Nodup) (hwalk : ∀ id ∈ pc'.walk, ∃ bd, (bd, id) ∈ map') :
    Registry pc' map' (boards.modify i f) := by
  refine ⟨?_, ?_, by simpa only [List.length_modify] using hheld, hentries, hunique, hwalk⟩
  · intro j b' hb'
    obtain ⟨b, hb, rfl⟩ := board_of_modify hb'
    split
    case isTrue hij =>
      subst hij
      exact (hboard b hb).1
    case isFalse hij => exact hother j b (Ne.symm hij) hb
  · intro j b' hb'
    obtain ⟨b, hb, rfl⟩ := board_of_modify hb'
    split
    case isTrue hij =>
      subst hij
      exact (hboard b hb).2
    case isFalse => exact h.wired hb

theorem Registry.modify (h : Registry pc map boards)
    (hframe : ∀ b, boards[i]? = some b →
      (f b).claimed = b.claimed ∧ (f b).released = b.released ∧ (f b).bdaddr = b.bdaddr)
    (hboard : ∀ b, boards[i]? = some b → Own pc' i (f b) ∧ Wired (f b))
    (hother : ∀ j b, j ≠ i → boards[j]? = some b → Own pc' j b)
    (hheld : ∀ id, pc'.held = some id → id < boards.length)
    (hwalk : ∀ id ∈ pc'.walk, id ∈ pc.walk) : Registry pc' map (boards.modify i f) :=
  h.change hboard hother hheld (fun bd id => (h.entries bd id).trans (inMap_modify hframe bd id).symm) h.unique
    fun id hid => h.walk id (hwalk id hid)

theorem Registry.goto (h : Registry pc map boards) (hown : ∀ id b, boards[id]? = some b → Own pc' id b)
    (hheld : ∀ id, pc'.held = some id → id < boards.length)
    (hwalk : ∀ id ∈ pc'.walk, ∃ bd, (bd, id) ∈ map) : Registry pc' map boards :=
  ⟨fun hb => hown _ _ hb, h.wired, hheld, h.entries, h.unique, hwalk⟩

theorem Registry.carry (h : Registry pc map boards) (hheld : pc'.held = pc.held)
    (henter : pc'.entering = pc.entering) (hclaim : ∀ id m, pc' ≠ .claiming id m) (hwalk : pc'.walk = []) :
    Registry pc' map boards :=
  h.goto (fun _ _ hb => (h.own hb).goto hheld henter hclaim) (fun id hid => h.held id (hheld ▸ hid))
    (by simp [hwalk])

theorem Registry.idle (h : Registry pc map boards) (hpc : pc.held = none) (hpc' : pc'.held = none)
    (hwalk : ∀ id ∈ pc'.walk, ∃ bd, (bd, id) ∈ map) : Registry pc' map boards :=
  h.goto (fun _ _ hb => (h.own hb).other (by simp [hpc]) (by simp [hpc'])) (by simp [hpc']) hwalk

theorem Wired.kill (h : Wired b) : Wired b.kill := by
  unfold Board.kill
  split
  case isTrue =>
    refine ⟨h.link, fun hopen => ?_⟩
    obtain ⟨st, hst, hclosed⟩ := h.opened hopen
    exact ⟨{ st with shut := true }, by simp [hst], hclosed⟩
  case isFalse => exact h

theorem kill_frame (b : Board) : b.kill = { b with stream := b.kill.stream } := by
  unfold Board.kill
  split <;> rfl

theorem Own.kill (h : Own pc i b) : Own pc i b.kill := by
  rw [kill_frame]
  exact ⟨h.alone, h.destroyed, h.entered, h.fresh⟩

theorem Registry.kill (h : Registry pc map boards) (hf : ∀ b, f b = b ∨ f b = b.kill) :
    Registry pc map (boards.modify i f) := by
  refine h.modify (fun b _ => ?_) (fun b hb => ?_) (fun _ _ _ hb => h.own hb) h.held (fun _ hid => hid)
  · rcases hf b with heq | heq
    · simp [heq]
    · rw [heq, kill_frame]
      simp
  · rcases hf b with heq | heq
    · rw [heq]
      exact ⟨h.own hb, h.wired hb⟩
    · rw [heq]
      exact ⟨(h.own hb).kill, (h.wired hb).kill⟩

theorem Registry.append (h : Registry pc map boards) (hpc : pc.held = none)
    (hheld : ∀ id, pc'.held = some id → id = boards.length) (hown : Own pc' boards.length b) (hwired : Wired b)
    (hclaimed : b.claimed = false) (hwalk : pc'.walk = []) : Registry pc' map (boards ++ [b]) := by
  have hlt : ∀ {id c}, boards[id]? = some c → id < boards.length := fun hc => (List.getElem?_eq_some_iff.mp hc).1
  refine ⟨?_, ?_, ?_, ?_, h.unique, ?_⟩
  · intro id c hc
    rcases board_of_append hc with hc | ⟨rfl, rfl⟩
    · refine (h.own hc).other (by simp [hpc]) fun hh => ?_
      exact Nat.ne_of_lt (hlt hc) (hheld id hh)
    · exact hown
  · intro id c hc
    rcases board_of_append hc with hc | ⟨-, rfl⟩
    · exact h.wired hc
    · exact hwired
  · intro id hid
    simp [hheld id hid]
  · intro bd id
    rw [h.entries bd id]
    constructor
    · rintro ⟨c, hc, hin⟩
      exact ⟨c, by rwa [List.getElem?_append_left (hlt hc)], hin⟩
    · rintro ⟨c, hc, hin⟩
      rcases board_of_append hc with hc | ⟨-, rfl⟩
      · exact ⟨c, hc, hin⟩
      · rw [hclaimed] at hin
        cases hin.1
  · simp [hwalk]

theorem Registry.insert (h : Registry pc map boards) (hb : boards[i]? = some b)
    (hnew : ∀ old, (b.bdaddr, old) ∉ map) (hout : ∀ bd, (bd, i) ∉ map)
    (hin : (f b).claimed = true ∧ (f b).released = false ∧ (f b).bdaddr = b.bdaddr)
    (hown : Own pc' i (f b)) (hwired : Wired (f b))
    (hother : ∀ j b, j ≠ i → boards[j]? = some b → Own pc' j b)
    (hheld : ∀ id, pc'.held = some id → id < boards.length) (hwalk : pc'.walk = []) :
    Registry pc' ((b.bdaddr, i) :: map) (boards.modify i f) := by
  refine h.change (fun c hc => ?_) hother hheld (fun bd j => ?_) ?_ (by simp [hwalk])
  · cases hc.symm.trans hb
    exact ⟨hown, hwired⟩
  · obtain ⟨hclaimed, hfree, hbd⟩ := hin
    rw [List.mem_cons, Prod.mk.injEq]
    by_cases hj : i = j
    · subst hj
      simp only [InMap, modify_same hb, hout bd, or_false, and_true, Option.some.injEq, exists_eq_left',
        hclaimed, hfree, hbd, true_and]
      exact eq_comm
    · rw [InMap, List.getElem?_modify_ne _ _ hj, ← InMap, h.entries bd j]
      simp [Ne.symm hj]
  · rw [List.map_cons, List.nodup_cons]
    refine ⟨fun hmem => ?_, h.unique⟩
    obtain ⟨⟨bd, j⟩, hj, rfl⟩ := List.mem_map.mp hmem
    exact hnew j hj

theorem Registry.remove (h : Registry pc map boards) (hb : boards[i]? = some b) (hin : (b.bdaddr, i) ∈ map)
    (hreleased : (f b).released = true) (hown : Own pc' i (f b)) (hwired : Wired (f b))
    (hother : ∀ j b, j ≠ i → boards[j]? = some b → Own pc' j b)
    (hheld : ∀ id, pc'.held = some id → id < boards.length) (hwalk : pc'.walk = []) :
    Registry pc' (map.filter fun p => p.1 ≠ b.bdaddr) (boards.modify i f) := by
  have hsame : ∀ c, boards[i]? = some c → c = b := fun c hc => Option.some.inj (hc.symm.trans hb)
  refine h.change (fun c hc => ?_) hother hheld (fun bd id => ?_) ?_ (by simp [hwalk])
  · rw [hsame c hc]
    exact ⟨hown, hwired⟩
  · rw [List.mem_filter]
    by_cases hid : i = id
    · subst hid
      constructor
      · rintro ⟨hmem, hne⟩
        obtain ⟨c, hc, -, -, hbd⟩ := (h.entries bd i).mp hmem
        rw [hsame c hc] at hbd
        simp [hbd] at hne
      · rintro ⟨c, hc, -, hfree, -⟩
        rw [modify_same hb, Option.some.injEq] at hc
        rw [← hc, hreleased] at hfree
        cases hfree
    · rw [InMap, List.getElem?_modify_ne _ _ hid, ← InMap, ← h.entries bd id]
      constructor
      · exact fun hmem => hmem.1
      · intro hmem
        refine ⟨hmem, ?_⟩
        simp only [ne_eq, decide_not, Bool.not_eq_eq_eq_not, Bool.not_true, decide_eq_false_iff_not]
        rintro rfl
        exact hid (h.entry_unique hin hmem)
  · exact h.unique.sublist (List.filter_sublist.map Prod.fst)

end Registry

section Steps

variable {env : Env} {H : Hashes} {s s' : State} {l : Label}

theorem new_wired (m : Heard) (psk : Psk) : Wired (.new m psk) := ⟨rfl, nofun⟩

theorem Own.act {pc : Pc} {id : ℕ} {b b' : Board} {a : Act} (h : Own pc id b) (hact : b.act a = some b')
    (ha : a ≠ .release) : Own pc id b' := by
  have hheld : pc.held ≠ some id := fun hh => (act_present hact).1 (h.alone hh)
  obtain ⟨halive, hdestroyed⟩ := act_destroyed hact
  obtain ⟨-, -, -, -, hclaimed⟩ := act_frame hact
  refine ⟨fun hh => absurd hh hheld, ?_, ?_, ?_⟩
  · have hzero : b.destroyed = 0 := by simpa [halive] using h.destroyed
    simp [hdestroyed, hzero, hheld]
  · rw [hclaimed, act_released hact ha, act_running hact ha]
    exact h.entered
  · rintro m rfl
    exact absurd rfl hheld

section Turns

variable {pc pc' : Pc} {map : List (Bytes × ℕ)} {boards : List Board} {id : ℕ} {m : Heard} {b b' ctx : Board} {a : Act}

/-- The manager holds one context at most, so a step on it leaves the others with their owners. -/
theorem Registry.others (h : Registry pc map boards) (hheld : pc.held = some id)
    (hheld' : pc'.held = some id ∨ pc'.held = none) (j : ℕ) (b : Board) (hji : j ≠ id) (hb : boards[j]? = some b) :
    Own pc' j b := by
  refine (h.own hb).other ?_ ?_
  · rw [hheld]
    simpa using hji.symm
  · rcases hheld' with hheld' | hheld' <;> rw [hheld']
    · simpa using hji.symm
    · simp

theorem lt_of_held (hpc : pc.held = some id) (hctx : boards[id]? = some ctx) (j : ℕ) (hj : pc.held = some j) :
    j < boards.length := by
  cases hpc.symm.trans hj
  exact (List.getElem?_eq_some_iff.mp hctx).1

theorem Registry.register (h : Registry (.claiming id m) map boards) (hctx : boards[id]? = some ctx)
    (hnew : ∀ old, (ctx.bdaddr, old) ∉ map) :
    Registry (.spawning id m) ((ctx.bdaddr, id) :: map) (boards.modify id fun b => { b with claimed := true }) := by
  have hown := h.own hctx
  have hfree := hown.fresh m rfl
  have hout : ∀ bd, (bd, id) ∉ map := by
    intro bd hmem
    obtain ⟨c, hc, hclaimed, hreleased, -⟩ := (h.entries bd id).mp hmem
    cases hc.symm.trans hctx
    have hin := hown.entered.mp ⟨hclaimed, hreleased⟩
    simp [Pc.entering, hown.alone rfl, Thread.running] at hin
  refine h.insert hctx hnew hout ⟨rfl, hfree, rfl⟩ ⟨fun _ => hown.alone rfl, ?_, ?_, nofun⟩
    ⟨(h.wired hctx).link, (h.wired hctx).opened⟩ (h.others rfl (.inl rfl)) (lt_of_held rfl hctx) rfl
  · rw [if_pos (.inl rfl)]
    exact hown.undestroyed rfl
  · simp [hfree, Pc.entering]

theorem Registry.discard (h : Registry (.discarding id) map boards) :
    Registry .receive map (boards.modify id Board.destroy) := by
  refine h.modify (fun _ _ => ⟨rfl, rfl, rfl⟩) (fun c hc => ?_) (h.others rfl (.inr rfl)) nofun nofun
  have hown := h.own hc
  have habsent := hown.alone rfl
  refine ⟨⟨nofun, ?_, ?_, nofun⟩, ⟨(h.wired hc).link, (h.wired hc).opened⟩⟩
  · simp [Board.destroy, hown.undestroyed rfl, Pc.held, habsent, Thread.alive]
  · exact hown.entered

theorem Registry.spawn (h : Registry (.spawning id m) map boards) :
    Registry .receive map (boards.modify id fun b => { b with thread := .connecting }) := by
  refine h.modify (fun _ _ => ⟨rfl, rfl, rfl⟩) (fun c hc => ?_) (h.others rfl (.inr rfl)) nofun nofun
  have hown := h.own hc
  have hlink := (h.wired hc).link
  rw [hown.alone rfl] at hlink
  refine ⟨⟨nofun, ?_, ?_, nofun⟩, ⟨hlink, nofun⟩⟩
  · simp [hown.undestroyed rfl, Thread.alive]
  · simp [hown.entered.mpr (.inl rfl), Thread.running]

theorem Registry.giveUp (h : Registry (.unspawned id) map boards) (hctx : boards[id]? = some ctx) :
    Registry (.discarding id) (map.filter fun p => p.1 ≠ ctx.bdaddr)
      (boards.modify id fun b => { b with released := true }) := by
  have hown := h.own hctx
  have habsent := hown.alone rfl
  have hin := hown.entered.mpr (.inl rfl)
  refine h.remove hctx ((h.entries _ _).mpr ⟨ctx, hctx, hin.1, hin.2, rfl⟩) rfl
    ⟨fun _ => habsent, ?_, ?_, nofun⟩ ⟨(h.wired hctx).link, (h.wired hctx).opened⟩ (h.others rfl (.inl rfl))
    (lt_of_held rfl hctx) rfl
  · rw [if_pos (.inl rfl)]
    exact hown.undestroyed rfl
  · simp [Pc.entering, habsent, Thread.running]

theorem Registry.act (h : Registry pc map boards) (hb : boards[id]? = some b) (hact : b.act a = some b')
    (ha : a ≠ .release) : Registry pc map (boards.modify id fun _ => b') := by
  obtain ⟨hbd, -, -, -, hclaimed⟩ := act_frame hact
  refine h.modify (fun c hc => ?_) (fun c hc => ?_) (fun _ _ _ hc => h.own hc) h.held fun _ hid => hid
  · cases hc.symm.trans hb
    exact ⟨hclaimed, act_released hact ha, hbd⟩
  · exact ⟨(h.own hb).act hact ha, (h.wired hb).act hact⟩

theorem Registry.release (h : Registry pc map boards) (hb : boards[id]? = some b) (hact : b.act .release = some b')
    (hwalk : pc.walk = []) :
    Registry pc (map.filter fun p => p.1 ≠ b.bdaddr) (boards.modify id fun _ => b') := by
  have hown := h.own hb
  obtain ⟨hthread, rfl⟩ := release_spec hact
  have hheld : pc.held ≠ some id := fun hh => by simp [hown.alone hh] at hthread
  have henter : pc.entering ≠ some id := fun he => hheld (Pc.held_of_entering he)
  have hin := hown.entered.mpr (.inr (by rw [hthread]; rfl))
  refine h.remove hb ((h.entries _ _).mpr ⟨b, hb, hin.1, hin.2, rfl⟩) rfl
    ⟨fun hh => absurd hh hheld, ?_, ?_, ?_⟩ ((h.wired hb).act hact) (fun j c _ hc => h.own hc) h.held hwalk
  · simpa [hthread, Thread.alive] using hown.destroyed
  · simpa [Thread.running] using henter
  · intro m hm
    exact absurd (congrArg Pc.held hm) hheld

end Turns

theorem Registry.step (h : Registry s.pc s.map s.boards) (hs : Step env H s l s') :
    Registry s'.pc s'.map s'.boards := by
  cases hs with
  | ignored => exact h
  | heard m hpc | kept m _ _ _ _ hpc | rejected m _ _ _ _ hpc | admitted m _ _ _ _ hpc
  | admittedLate m _ _ _ _ _ hpc | unallocated m _ _ hpc | revokedAll m hpc =>
    exact h.idle (by rw [hpc]; rfl) rfl nofun
  | refreshed m _ _ _ _ hpc =>
    refine h.idle (by rw [hpc]; rfl) rfl fun id hid => ?_
    obtain ⟨⟨bd, _⟩, hmem, rfl⟩ := List.mem_map.mp hid
    exact ⟨bd, hmem⟩
  | spared id rest m hpc =>
    have hwalk := h.walk
    rw [hpc] at hwalk
    exact h.idle (by rw [hpc]; rfl) rfl fun j hj => hwalk j (List.mem_cons_of_mem _ hj)
  | revoked id rest m b hpc =>
    have hwalk := h.walk
    rw [hpc] at hwalk
    exact (h.kill (i := id) fun _ => .inr rfl).idle (by rw [hpc]; rfl) rfl
      fun j hj => hwalk j (List.mem_cons_of_mem _ hj)
  | unnamed m psk r hpc =>
    refine h.append (by rw [hpc]; rfl) nofun ⟨nofun, rfl, ?_, nofun⟩ ⟨rfl, nofun⟩ rfl rfl
    simp [Board.destroy, Board.new, Pc.entering, Thread.running]
  | created m psk hpc =>
    refine h.append (by rw [hpc]; rfl) (fun id hid => ?_) ⟨fun _ => rfl, ?_, ?_, fun _ _ => rfl⟩
      (new_wired m psk) rfl rfl
    · simpa [Pc.held] using hid.symm
    · simp [Pc.held, Board.new]
    · simp [Pc.entering, Board.new, Thread.running]
  | found id old m ctx putFails hpc =>
    have hkill := h.kill (i := old) (f := fun b => if b.ip ≠ ctx.ip then b.kill else b)
      fun b => (ite_eq_or_eq _ _ _).symm
    exact hkill.carry (by rw [hpc]; rfl) (by rw [hpc]; rfl) nofun rfl
  | unregistered id m putFails hpc => exact h.carry (by rw [hpc]; rfl) (by rw [hpc]; rfl) nofun rfl
  | registered id m ctx putFails hpc hctx hnew =>
    rw [hpc] at h
    exact h.register hctx hnew
  | discarded id hpc =>
    rw [hpc] at h
    exact h.discard
  | spawned id m hpc =>
    rw [hpc] at h
    exact h.spawn
  | spawnFailed id m hpc => exact h.carry (by rw [hpc]; rfl) (by rw [hpc]; rfl) nofun rfl
  | gaveUp id ctx hpc hctx =>
    rw [hpc] at h
    exact h.giveUp hctx
  | act id a b b' hb hact ha => exact h.act hb hact ha
  | released id b b' hb hact hfree =>
    refine h.release hb hact ?_
    cases hpc : s.pc with
    | revoking rest m => simp [State.locked, hpc] at hfree
    | _ => rfl

theorem Reachable.registry {env : Env} {H : Hashes} {s : State} (h : Reachable env H s) :
    Registry s.pc s.map s.boards := by
  apply h.invariant (fun s => Registry s.pc s.map s.boards)
  · rintro _ rfl
    exact ⟨nofun, nofun, nofun, fun bd id => ⟨nofun, fun ⟨b, hb, _⟩ => by cases hb⟩, List.nodup_nil, nofun⟩
  · intro s l s' _ hinv _ hs
    exact hinv.step (step_cases hs)

structure RegistrySound (env : Env) (H : Hashes) (s : State) : Prop where
  one : ∀ (i j : ℕ) (b c : Board), s.boards[i]? = some b → s.boards[j]? = some c →
    b.thread.running = true → c.thread.running = true → b.bdaddr = c.bdaddr → i = j
  entries : ∀ bd id, (bd, id) ∈ s.map ↔ InMap s.boards bd id
  keys : (s.map.map Prod.fst).Nodup
  valid : ∀ bd id, (bd, id) ∈ s.map → ∃ b, s.boards[id]? = some b ∧ b.bdaddr = bd ∧ b.destroyed = 0
  walked : ∀ id ∈ s.pc.walk, ∃ b, s.boards[id]? = some b ∧ b.destroyed = 0
  destroyed : ∀ (id : ℕ) (b : Board), s.boards[id]? = some b →
    b.destroyed = if s.pc.held = some id ∨ b.thread.alive = true then 0 else 1
  releases : ∀ id s', step env H s (.board id .release) = some s' ∨
      s.pc = .unspawned id ∧ step env H s .giveUp = some s' →
    ∃ b : Board, s.boards[id]? = some b ∧ (b.bdaddr, id) ∈ s.map ∧
      ∀ p, p ∈ s'.map ↔ p ∈ s.map ∧ p ≠ (b.bdaddr, id)
  kills : ∀ (id : ℕ) (b : Board), s.boards[id]? = some b → b.link = true →
    ∃ st, b.stream = some st ∧ st.closed = false

theorem Own.undestroyed_of_in {pc : Pc} {id : ℕ} {b : Board} (h : Own pc id b)
    (hin : b.claimed = true ∧ b.released = false) : b.destroyed = 0 := by
  rw [h.destroyed, if_pos]
  refine (h.entered.mp hin).imp Pc.held_of_entering fun hrun => ?_
  revert hrun
  cases b.thread <;> simp [Thread.running, Thread.alive]

theorem Registry.mem_remove {pc : Pc} {map : List (Bytes × ℕ)} {boards : List Board} {bd : Bytes} {id : ℕ}
    (h : Registry pc map boards) (hin : (bd, id) ∈ map) (p : Bytes × ℕ) :
    p ∈ map.filter (fun p => p.1 ≠ bd) ↔ p ∈ map ∧ p ≠ (bd, id) := by
  rw [List.mem_filter]
  refine and_congr_right fun hp => ?_
  obtain ⟨bd', id'⟩ := p
  simp only [ne_eq, decide_not, Bool.not_eq_eq_eq_not, Bool.not_true, decide_eq_false_iff_not, Prod.mk.injEq,
    not_and]
  constructor
  · exact fun hne heq => absurd heq hne
  · rintro hne rfl
    exact hne rfl (h.entry_unique hp hin)

theorem registry_sound (h : Reachable env H s) : RegistrySound env H s := by
  have hreg := h.registry
  have hin : ∀ {id : ℕ} {b : Board}, s.boards[id]? = some b → b.thread.running = true → (b.bdaddr, id) ∈ s.map := by
    intro id b hb hrun
    have hin := (hreg.own hb).entered.mpr (.inr hrun)
    exact (hreg.entries _ _).mpr ⟨b, hb, hin.1, hin.2, rfl⟩
  have hvalid : ∀ bd id, (bd, id) ∈ s.map → ∃ b, s.boards[id]? = some b ∧ b.bdaddr = bd ∧ b.destroyed = 0 := by
    intro bd id hmem
    obtain ⟨b, hb, hclaimed, hreleased, hbd⟩ := (hreg.entries bd id).mp hmem
    exact ⟨b, hb, hbd, (hreg.own hb).undestroyed_of_in ⟨hclaimed, hreleased⟩⟩
  refine ⟨?_, hreg.entries, hreg.unique, hvalid, ?_, fun id b hb => (hreg.own hb).destroyed, ?_, ?_⟩
  · intro i j b c hb hc hrunb hrunc hbd
    exact hreg.entry_unique (hin hb hrunb) (hbd ▸ hin hc hrunc)
  · intro id hid
    obtain ⟨bd, hmem⟩ := hreg.walk id hid
    obtain ⟨b, hb, -, hzero⟩ := hvalid bd id hmem
    exact ⟨b, hb, hzero⟩
  · rintro id s' (hs | ⟨hpc, hs⟩)
    · cases step_cases hs with
      | act _ _ b b' hb hact ha => exact absurd rfl ha
      | released _ b b' hb hact hfree =>
        have hmem := hin hb (by rw [(release_spec hact).1]; rfl)
        exact ⟨b, hb, hmem, hreg.mem_remove hmem⟩
    · cases step_cases hs with
      | gaveUp id' ctx hpc' hctx =>
        rw [hpc] at hpc'
        cases hpc'
        have hentered := (hreg.own hctx).entered.mpr (.inl (by rw [hpc]; rfl))
        have hmem := (hreg.entries _ _).mpr ⟨ctx, hctx, hentered.1, hentered.2, rfl⟩
        exact ⟨ctx, hctx, hmem, hreg.mem_remove hmem⟩
  · intro id b hb hlink
    have hwired := hreg.wired hb
    apply hwired.opened
    rw [hwired.link] at hlink
    revert hlink
    cases b.thread <;> simp [Thread.linked, Thread.onStream]

end Steps

section Vector

def vectorKey : Psk := .fill 32 66
def vectorBdaddr : Bytes := ascii "a0:a3:b3:2f:61:1e"
def vectorEntry : Bytes := vectorBdaddr ++ ascii "=" ++ Auth.pskToHex vectorKey
def vectorSource : Block 4 := ⟨[172, 16, 135, 242], rfl⟩
def vectorAnnounce : Bytes :=
  ascii "ESPHCI1\tANNOUNCE\ta0:a3:b3:2f:61:1e\t4444\tesp-hci-bridge\tf31c4827ed4d937c2384e8e08b99cf52\n"

def vectorOptions : Options := ⟨4445, ascii "0.0.0.0", ascii "172.16.0.0/12", [], [], [vectorEntry], false, []⟩

def vectorEnv : Env := ⟨vectorOptions, Subnet.Cidr.parse vectorOptions.subnet, []⟩

def attach : List Label :=
  [.datagram vectorAnnounce (some vectorSource), .refresh (.ok .default) 0 0, .verify (.ok .default) 0 0,
    .create .ok, .claim false, .spawn false]

theorem registry_sound_reattached :
    ∃ s, RegistrySound vectorEnv KeyProtocol.vectorHashes s ∧
      s.boards.map (fun b => (b.bdaddr, b.thread, b.destroyed)) =
        [(vectorBdaddr, .gone, 1), (vectorBdaddr, .connecting, 0)] := by
  obtain ⟨s, hs, hp⟩ := Runs.exists_of_run (step vectorEnv KeyProtocol.vectorHashes) (IsInit vectorEnv)
    Runs.always (start vectorOptions)
    (attach ++ [.board 0 .connectFailed, .board 0 .release, .board 0 .destroy] ++ attach)
    (fun s => decide (s.boards.map (fun b => (b.bdaddr, b.thread, b.destroyed)) =
      [(vectorBdaddr, .gone, 1), (vectorBdaddr, .connecting, 0)])) rfl (by decide +kernel)
  exact ⟨s, registry_sound hs, of_decide_eq_true hp⟩

/-- The entry is released before the context is destroyed, and the next announce takes it. -/
theorem two_threads_alive :
    ¬ ∀ (env : Env) (H : Hashes) (s : State), Reachable env H s → ∀ (i j : ℕ) (b c : Board),
      s.boards[i]? = some b → s.boards[j]? = some c → b.thread.alive = true → c.thread.alive = true →
        b.bdaddr = c.bdaddr → i = j := by
  intro h
  obtain ⟨s, hs, hp⟩ := Runs.exists_of_run (step vectorEnv KeyProtocol.vectorHashes) (IsInit vectorEnv)
    Runs.always (start vectorOptions)
    (attach ++ [.board 0 .connectFailed, .board 0 .release] ++ attach)
    (fun s => decide (s.boards.map (fun b => (b.bdaddr, b.thread)) =
      [(vectorBdaddr, .released), (vectorBdaddr, .connecting)])) rfl (by decide +kernel)
  have hboards := of_decide_eq_true hp
  obtain ⟨b, hb, hb'⟩ : ∃ b, s.boards[0]? = some b ∧ (b.bdaddr, b.thread) = (vectorBdaddr, .released) := by
    have h0 := congrArg (fun l => l[0]?) hboards
    simpa using h0
  obtain ⟨c, hc, hc'⟩ : ∃ c, s.boards[1]? = some c ∧ (c.bdaddr, c.thread) = (vectorBdaddr, .connecting) := by
    have h1 := congrArg (fun l => l[1]?) hboards
    simpa using h1
  rw [Prod.mk.injEq] at hb' hc'
  have heq := h _ _ s hs 0 1 b c hb hc (by rw [hb'.2]; rfl) (by rw [hc'.2]; rfl) (hb'.1.trans hc'.1.symm)
  cases heq

end Vector

end HciBridge.Manager
