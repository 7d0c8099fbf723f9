import HciBridge.Registry

namespace HciBridge.Manager

open Text
open Auth (Bytes Block Psk ascii)
open Config (Settings lookupPsk)
open KeyProtocol (Hashes)
open Subnet (Cidr cidrText readInt32)

structure Admission (resolveHost : Bytes → Option (Block 4)) (opts : Options) (H : Hashes) (s : State)
    (r : Started) (ann : Discovery.Announcement) (k : Psk) : Prop where
  parses : Discovery.parse r.data = .ok (.announce ann)
  notDenied : ∀ d ∈ opts.deny, eqlIgnoreCase d ann.bdaddr = false
  allowed : opts.allow = [] ∨ ∃ a ∈ opts.allow, eqlIgnoreCase a ann.bdaddr = true
  notPinned : ∀ host ∈ opts.pinned, resolveHost host ≠ some r.src
  subnet : ∀ base n, n ≤ 32 → opts.subnet = cidrText base n →
    ∀ i < n, (readInt32 r.src).getMsbD i = (readInt32 base).getMsbD i
  key : lookupPsk r.entries ann.bdaddr = some k
  signature : KeyProtocol.Zig.verifyAnnounce H k ann.bdaddr ann.port ann.name r.src ann.sig = true
  board : ∃ b, s.boards[r.id]? = some b ∧ b.bdaddr = ann.bdaddr ∧ b.ip = r.src ∧ b.port = ann.port ∧
    b.psk = k ∧ ∀ k' ∈ b.authKey, k' = k

/-- No announce gets through by the key of the second look-up. -/
def firstLook (env : Env) (H : Hashes) (s : State) : Label → Bool
  | .verify result now stamp =>
    match s.pc with
    | .keyed m =>
      (lookupPsk s.keys.entries m.ann.bdaddr).all fun psk =>
        verifies H psk m || !(freshKey env s m result now stamp).any fun fresh => verifies H fresh m
    | _ => true
  | _ => true

structure HeardOk (env : Env) (m : Heard) : Prop where
  parse : Discovery.parse m.data = .ok (.announce m.ann)
  permits : permits env.opts m.ann.bdaddr = true
  pinned : m.src ∉ env.pinned

structure Passed (env : Env) (H : Hashes) (entries : List Bytes) (m : Heard) (k : Psk) : Prop where
  heard : HeardOk env m
  subnet : ∀ cidr ∈ env.subnet, cidr.contains m.src = true
  key : lookupPsk entries m.ann.bdaddr = some k
  sig : verifies H k m = true

structure SameCtx (b b' : Board) : Prop where
  bdaddr : b'.bdaddr = b.bdaddr
  ip : b'.ip = b.ip
  port : b'.port = b.port
  psk : b'.psk = b.psk

def Made (env : Env) (H : Hashes) (entries : List Bytes) (boards : List Board) (id : ℕ) (m : Heard) : Prop :=
  ∃ k b, Passed env H entries m k ∧ boards[id]? = some b ∧ SameCtx (.new m k) b

def Checked (env : Env) (H : Hashes) (entries : List Bytes) (boards : List Board) : Pc → Prop
  | .announced m | .revoking _ m | .keyed m => HeardOk env m
  | .admitted m psk => Passed env H entries m psk
  | .claiming id m | .spawning id m => Made env H entries boards id m
  | .receive | .discarding _ | .unspawned _ => True

structure Admitted (env : Env) (H : Hashes) (s : State) : Prop where
  checked : Checked env H s.keys.entries s.boards s.pc
  started : ∀ r ∈ s.started, ∃ m, r.data = m.data ∧ r.src = m.src ∧ Made env H r.entries s.boards r.id m
  threads : ∀ (id : ℕ) (b : Board), s.boards[id]? = some b → b.thread ≠ .absent → ∃ r ∈ s.started, r.id = id
  keys : ∀ (id : ℕ) (b : Board), s.boards[id]? = some b → ∀ k ∈ b.authKey, k = b.psk

variable {env : Env} {H : Hashes} {s s' : State} {l : Label} {b b' c : Board} {a : Act} {f : Board → Board}
  {boards : List Board} {entries : List Bytes} {i id : ℕ} {m : Heard}

theorem SameCtx.refl (b : Board) : SameCtx b b := ⟨rfl, rfl, rfl, rfl⟩

theorem SameCtx.trans (h : SameCtx b b') (h' : SameCtx b' c) : SameCtx b c :=
  ⟨h'.bdaddr.trans h.bdaddr, h'.ip.trans h.ip, h'.port.trans h.port, h'.psk.trans h.psk⟩

theorem SameCtx.act (hact : b.act a = some b') : SameCtx b b' := by
  obtain ⟨hbd, hip, hport, hpsk, -⟩ := act_frame hact
  exact ⟨hbd, hip, hport, hpsk⟩

theorem act_authKey (hact : b.act a = some b') (h : ∀ k ∈ b.authKey, k = b.psk) :
    ∀ k ∈ b'.authKey, k = b'.psk := by
  cases act_moves hact with
  | authenticate | authFailed => exact fun k hk => (Option.some.inj hk).symm
  | _ => exact h

structure Keeps (s s' : State) : Prop where
  boards : ∀ (id : ℕ) (b : Board), s.boards[id]? = some b → ∃ b', s'.boards[id]? = some b' ∧ SameCtx b b'
  threads : ∀ (id : ℕ) (b' : Board), s'.boards[id]? = some b' → b'.thread ≠ .absent →
    (∃ b, s.boards[id]? = some b ∧ b.thread ≠ .absent) ∨ ∃ r ∈ s'.started, r.id = id
  keys : ∀ (id : ℕ) (b' : Board), s'.boards[id]? = some b' →
    (∀ (b : Board), s.boards[id]? = some b → ∀ k ∈ b.authKey, k = b.psk) → ∀ k ∈ b'.authKey, k = b'.psk
  started : s.started ⊆ s'.started

theorem Keeps.same (hboards : s'.boards = s.boards) (hstarted : s'.started = s.started) : Keeps s s' := by
  refine ⟨fun id b hb => ⟨b, hboards ▸ hb, .refl b⟩, fun id b hb hne => .inl ⟨b, hboards ▸ hb, hne⟩,
    fun id b hb h => h b (hboards ▸ hb), ?_⟩
  rw [hstarted]
  exact fun _ h => h

theorem Keeps.modify (hboards : s'.boards = s.boards.modify i f) (hstarted : s.started ⊆ s'.started)
    (hctx : ∀ b, s.boards[i]? = some b → SameCtx b (f b))
    (hthread : ∀ b, s.boards[i]? = some b → (f b).thread ≠ .absent →
      b.thread ≠ .absent ∨ ∃ r ∈ s'.started, r.id = i)
    (hkey : ∀ b, s.boards[i]? = some b → (∀ k ∈ b.authKey, k = b.psk) → ∀ k ∈ (f b).authKey, k = (f b).psk) :
    Keeps s s' := by
  refine ⟨fun id b hb => ?_, fun id b' hb' hne => ?_, fun id b' hb' h => ?_, hstarted⟩
  · rw [hboards]
    by_cases hi : i = id
    · subst hi
      exact ⟨f b, modify_same hb, hctx b hb⟩
    · exact ⟨b, by rw [List.getElem?_modify_ne _ _ hi, hb], .refl b⟩
  · rw [hboards] at hb'
    obtain ⟨b, hb, rfl⟩ := board_of_modify hb'
    split at hne
    case isTrue hi =>
      subst hi
      exact (hthread b hb hne).imp_left fun h => ⟨b, hb, h⟩
    case isFalse => exact .inl ⟨b, hb, hne⟩
  · rw [hboards] at hb'
    obtain ⟨b, hb, rfl⟩ := board_of_modify hb'
    split
    case isTrue hi =>
      subst hi
      exact hkey b hb (h b hb)
    case isFalse => exact h b hb

theorem Keeps.kill (hboards : s'.boards = s.boards.modify i f) (hstarted : s'.started = s.started)
    (hf : ∀ b, f b = b ∨ f b = b.kill) : Keeps s s' := by
  have hframe : ∀ b, SameCtx b (f b) ∧ (f b).thread = b.thread ∧ (f b).authKey = b.authKey := by
    intro b
    rcases hf b with heq | heq
    · rw [heq]
      exact ⟨.refl b, rfl, rfl⟩
    · rw [heq, kill_frame]
      exact ⟨⟨rfl, rfl, rfl, rfl⟩, rfl, rfl⟩
  refine .modify hboards (by rw [hstarted]; exact List.Subset.refl _) (fun b _ => (hframe b).1)
    (fun b _ hne => .inl ?_) (fun b _ h => ?_)
  · rwa [(hframe b).2.1] at hne
  · rw [(hframe b).2.2, (hframe b).1.psk]
    exact h

theorem Keeps.append (hboards : s'.boards = s.boards ++ [b]) (hstarted : s'.started = s.started)
    (hthread : b.thread = .absent) (hkey : b.authKey = none) : Keeps s s' := by
  have hcases : ∀ (id : ℕ) (c : Board), s'.boards[id]? = some c → s.boards[id]? = some c ∨ c = b := by
    intro id c hc
    rw [hboards] at hc
    exact (board_of_append hc).imp_right And.right
  refine ⟨fun id c hc => ⟨c, ?_, .refl c⟩, fun id c hc hne => .inl ?_, fun id c hc h => ?_, ?_⟩
  · rw [hboards, List.getElem?_append_left (List.getElem?_eq_some_iff.mp hc).1, hc]
  · rcases hcases id c hc with hc | rfl
    · exact ⟨c, hc, hne⟩
    · exact absurd hthread hne
  · rcases hcases id c hc with hc | rfl
    · exact h c hc
    · simp [hkey]
  · rw [hstarted]
    exact fun _ h => h

theorem Keeps.step (hs : Step env H s l s') : Keeps s s' := by
  cases hs with
  | unnamed => exact .append rfl rfl rfl rfl
  | created => exact .append rfl rfl rfl rfl
  | revoked => exact .kill rfl rfl fun b => .inr rfl
  | found id old m ctx =>
    exact .kill rfl rfl fun b => (ite_eq_or_eq _ _ _).symm
  | registered | discarded | gaveUp =>
    exact .modify rfl (List.Subset.refl _) (fun _ _ => ⟨rfl, rfl, rfl, rfl⟩) (fun _ _ h => .inl h) (fun _ _ h => h)
  | spawned id m hpc =>
    exact .modify rfl (List.subset_cons_self _ _) (fun _ _ => ⟨rfl, rfl, rfl, rfl⟩)
      (fun _ _ _ => .inr ⟨_, List.mem_cons_self, rfl⟩) (fun _ _ h => h)
  | act id a b b' hb hact | released id b b' hb hact =>
    refine .modify rfl (List.Subset.refl _) (fun c hc => ?_) (fun c hc _ => .inl ?_) (fun c hc => ?_) <;>
      cases hc.symm.trans hb
    · exact .act hact
    · exact (act_present hact).1
    · exact act_authKey hact
  | _ => exact .same rfl rfl

theorem Made.keeps (h : Made env H entries s.boards id m) (hk : Keeps s s') : Made env H entries s'.boards id m := by
  obtain ⟨k, b, hpassed, hb, hctx⟩ := h
  obtain ⟨b', hb', hsame⟩ := hk.boards id b hb
  exact ⟨k, b', hpassed, hb', hctx.trans hsame⟩

theorem Checked.keeps {pc : Pc} (h : Checked env H entries s.boards pc) (hk : Keeps s s') :
    Checked env H entries s'.boards pc := by
  cases pc with
  | claiming id m | spawning id m => exact Made.keeps h hk
  | _ => exact h

theorem Checked.step (h : Checked env H s.keys.entries s.boards s.pc) (hc : firstLook env H s l = true)
    (hs : Step env H s l s') : Checked env H s'.keys.entries s'.boards s'.pc := by
  have hk := Keeps.step hs
  cases hs with
  | ignored => exact h
  | heard m hpc hparse hpermits hpinned => exact ⟨hparse, hpermits, hpinned⟩
  | refreshed m _ _ _ _ hpc | kept m _ _ _ _ hpc | spared _ _ m hpc | revoked _ _ m _ hpc | revokedAll m hpc =>
    rw [hpc] at h
    exact h
  | admitted m psk result now stamp hpc hkey hsig hsubnet =>
    rw [hpc] at h
    exact ⟨h, hsubnet, hkey, hsig⟩
  | admittedLate m psk fresh result now stamp hpc hkey hold hfresh hsig =>
    simp [firstLook, hpc, hkey, hold, hfresh, hsig] at hc
  | created m psk hpc =>
    rw [hpc] at h
    exact ⟨psk, .new m psk, h, by simp, .refl _⟩
  | registered id m ctx putFails hpc =>
    rw [hpc] at h
    exact Made.keeps h hk
  | act | released => exact Checked.keeps h hk
  | _ => trivial

theorem Admitted.step (h : Admitted env H s) (hc : firstLook env H s l = true) (hs : Step env H s l s') :
    Admitted env H s' := by
  have hk := Keeps.step hs
  refine ⟨h.checked.step hc hs, ?_, fun id b hb hne => ?_, fun id b hb => hk.keys id b hb fun b hb => h.keys id b hb⟩
  · have hold : ∀ r ∈ s.started, ∃ m, r.data = m.data ∧ r.src = m.src ∧ Made env H r.entries s'.boards r.id m := by
      intro r hr
      obtain ⟨m, hdata, hsrc, hmade⟩ := h.started r hr
      exact ⟨m, hdata, hsrc, hmade.keeps hk⟩
    cases hs with
    | spawned id m hpc =>
      intro r hr
      rcases List.mem_cons.mp hr with rfl | hr
      · have hmade := h.checked
        rw [hpc] at hmade
        exact ⟨m, rfl, rfl, Made.keeps hmade hk⟩
      · exact hold r hr
    | _ => exact hold
  · rcases hk.threads id b hb hne with ⟨c, hc', hne'⟩ | hr
    · obtain ⟨r, hr, hid⟩ := h.threads id c hc' hne'
      exact ⟨r, hk.started hr, hid⟩
    · exact hr

theorem admitted_start (env : Env) (H : Hashes) : Admitted env H (start env.opts) := by
  refine ⟨trivial, fun r hr => ?_, fun id b hb => ?_, fun id b hb => ?_⟩
  · simp [start] at hr
  · simp [start] at hb
  · simp [start] at hb

theorem permits_spec {opts : Options} {bdaddr : Bytes} (h : permits opts bdaddr = true) :
    (∀ d ∈ opts.deny, eqlIgnoreCase d bdaddr = false) ∧
      (opts.allow = [] ∨ ∃ a ∈ opts.allow, eqlIgnoreCase a bdaddr = true) := by
  unfold permits at h
  split at h
  case isTrue => cases h
  case isFalse hdeny =>
    refine ⟨by simpa using hdeny, ?_⟩
    split at h
    case isTrue hallow => exact .inl hallow
    case isFalse => exact .inr (List.any_eq_true.mp h)

theorem startRun_spec {resolveHost : Bytes → Option (Block 4)} {opts : Options}
    (h : startRun resolveHost opts = .ok env) :
    env.opts = opts ∧ env.pinned = opts.pinned.filterMap resolveHost ∧ subnetOf opts = .ok env.subnet := by
  unfold startRun at h
  split at h
  case h_1 => cases h
  case h_2 =>
    cases hsub : subnetOf opts with
    | error e =>
      rw [hsub] at h
      cases h
    | ok subnet =>
      rw [hsub] at h
      cases h
      exact ⟨rfl, rfl, rfl⟩

theorem cidrText_ne_nil (base : Block 4) (n : ℕ) : cidrText base n ≠ [] := by
  simp [cidrText, ascii]

theorem subnetOf_cidrText {opts : Options} {subnet : Option Cidr} {base : Block 4} {n : ℕ} (hn : n ≤ 32)
    (htext : opts.subnet = cidrText base n) (h : subnetOf opts = .ok subnet) :
    ∃ cidr, subnet = some cidr ∧ Cidr.parse (cidrText base n) = some cidr := by
  rw [subnetOf, htext, if_neg (cidrText_ne_nil base n), Subnet.parse_cidrText base hn] at h
  cases h
  exact ⟨_, rfl, Subnet.parse_cidrText base hn⟩

theorem Admitted.of_started {resolveHost : Bytes → Option (Block 4)} {opts : Options} (h : Admitted env H s)
    (hstart : startRun resolveHost opts = .ok env) {r : Started} (hr : r ∈ s.started) :
    ∃ ann k, Admission resolveHost opts H s r ann k := by
  obtain ⟨rfl, hpinned, hsubnet⟩ := startRun_spec hstart
  obtain ⟨m, hdata, hsrc, k, b, hpassed, hb, hctx⟩ := h.started r hr
  obtain ⟨hdeny, hallow⟩ := permits_spec hpassed.heard.permits
  refine ⟨m.ann, k, by rw [hdata]; exact hpassed.heard.parse, hdeny, hallow, ?_, ?_, hpassed.key, ?_,
    b, hb, hctx.bdaddr, hctx.ip.trans hsrc.symm, hctx.port, hctx.psk, ?_⟩
  · intro host hhost hres
    have hnot := hpassed.heard.pinned
    rw [hpinned, ← hsrc] at hnot
    exact hnot (List.mem_filterMap.mpr ⟨host, hhost, hres⟩)
  · intro base n hn htext
    obtain ⟨cidr, hcidr, hparse⟩ := subnetOf_cidrText hn htext hsubnet
    rw [hsrc]
    exact (Subnet.contains_iff hn hparse).mp (hpassed.subnet cidr hcidr)
  · rw [hsrc]
    exact hpassed.sig
  · intro k' hk'
    rw [h.keys r.id b hb k' hk']
    exact hctx.psk

theorem admission (resolveHost : Bytes → Option (Block 4)) (opts : Options) (env : Env) (H : Hashes) (s : State)
    (hstart : startRun resolveHost opts = .ok env)
    (h : Runs.ReachableWhile (step env H) (IsInit env) (firstLook env H) s) :
    (∀ r ∈ s.started, ∃ ann k, Admission resolveHost opts H s r ann k) ∧
      ∀ (id : ℕ) (b : Board), s.boards[id]? = some b → b.thread ≠ .absent → ∃ r ∈ s.started, r.id = id := by
  have hadmitted : Admitted env H s := by
    apply h.invariant (Admitted env H)
    · rintro _ rfl
      exact admitted_start env H
    · intro s l s' _ hinv hc hs
      exact hinv.step hc (step_cases hs)
  exact ⟨fun r hr => hadmitted.of_started hstart hr, hadmitted.threads⟩

section Vector

def staleEntry : Bytes := vectorBdaddr ++ ascii "=" ++ Auth.pskToHex (.fill 32 65)

def staleEnv : Env := { vectorEnv with opts := { vectorOptions with reloads := true, pskEntries := [staleEntry] } }

theorem parse_vectorAnnounce : Discovery.parse vectorAnnounce =
    .ok (.announce ⟨vectorBdaddr, 4444, ascii "esp-hci-bridge", ascii "f31c4827ed4d937c2384e8e08b99cf52"⟩) := by
  have htext : vectorAnnounce = Discovery.announceText vectorBdaddr 4444 (ascii "esp-hci-bridge")
      (ascii "f31c4827ed4d937c2384e8e08b99cf52") := by decide +kernel
  rw [htext]
  exact Discovery.parse_announceText (by decide) (by decide) (by norm_num) (by decide) (by decide) (by decide)

theorem lookupPsk_vectorEntry : lookupPsk [vectorEntry] vectorBdaddr = some vectorKey := by decide +kernel

theorem startRun_staleEnv : startRun (fun _ => none) staleEnv.opts = .ok staleEnv := rfl

/-- The key is replaced while an announce is checked: it verifies under the new key, and the thread
gets the old one. -/
theorem stale_key_used :
    ¬ ∀ (resolveHost : Bytes → Option (Block 4)) (opts : Options) (env : Env) (H : Hashes) (s : State),
      startRun resolveHost opts = .ok env → Reachable env H s →
        ∀ r ∈ s.started, ∃ ann k, Admission resolveHost opts H s r ann k := by
  intro h
  obtain ⟨s, hs, hp⟩ := Runs.exists_of_run (step staleEnv KeyProtocol.vectorHashes) (IsInit staleEnv)
    Runs.always (start staleEnv.opts)
    [.datagram vectorAnnounce (some vectorSource),
      .refresh (.ok { Settings.default with psk := [staleEntry] }) 0 0, .revoke,
      .verify (.ok { Settings.default with psk := [vectorEntry] }) 2000000000 2000000000,
      .create .ok, .claim false, .spawn false]
    (fun s => decide (s.started.map (fun r => (r.id, r.data, r.entries)) = [(0, vectorAnnounce, [vectorEntry])] ∧
      s.boards.map Board.psk = [.fill 32 65])) rfl (by decide +kernel)
  obtain ⟨hstarted, hboards⟩ := of_decide_eq_true hp
  obtain ⟨r, hr, hid, hdata, hentries⟩ :
      ∃ r ∈ s.started, r.id = 0 ∧ r.data = vectorAnnounce ∧ r.entries = [vectorEntry] := by
    have hmem : (0, vectorAnnounce, [vectorEntry]) ∈ s.started.map fun r => (r.id, r.data, r.entries) := by
      simp [hstarted]
    simpa only [List.mem_map, Prod.mk.injEq] using hmem
  obtain ⟨ann, k, hadm⟩ := h (fun _ => none) staleEnv.opts staleEnv _ s startRun_staleEnv hs r hr
  obtain ⟨b, hb, -, -, -, hpsk, -⟩ := hadm.board
  have hb0 : b.psk = .fill 32 65 := by
    have h0 := congrArg (fun l => l[0]?) hboards
    rw [hid] at hb
    simpa [hb] using h0
  have hparse := hadm.parses
  rw [hdata, parse_vectorAnnounce] at hparse
  cases hparse
  have hkey := hadm.key
  rw [hentries, lookupPsk_vectorEntry, Option.some.injEq] at hkey
  rw [hb0, ← hkey] at hpsk
  revert hpsk
  decide

theorem admission_attached :
    ∃ s, ((∀ r ∈ s.started, ∃ ann k, Admission (fun _ => none) vectorOptions KeyProtocol.vectorHashes s r ann k) ∧
      ∀ (id : ℕ) (b : Board), s.boards[id]? = some b → b.thread ≠ .absent → ∃ r ∈ s.started, r.id = id) ∧
      s.boards.map (fun b => (b.bdaddr, b.psk, b.thread)) = [(vectorBdaddr, vectorKey, .connecting)] := by
  obtain ⟨s, hs, hp⟩ := Runs.exists_of_run (step vectorEnv KeyProtocol.vectorHashes) (IsInit vectorEnv)
    (firstLook vectorEnv KeyProtocol.vectorHashes) (start vectorOptions) attach
    (fun s => decide (s.boards.map (fun b => (b.bdaddr, b.psk, b.thread)) =
      [(vectorBdaddr, vectorKey, .connecting)])) rfl (by decide +kernel)
  exact ⟨s, admission (fun _ => none) vectorOptions vectorEnv KeyProtocol.vectorHashes s rfl hs, of_decide_eq_true hp⟩

end Vector

end HciBridge.Manager
