import HciBridge.OwnershipFiles

namespace HciBridge.Ownership

open Auth (Bytes Block Psk ascii hexlify bdaddrText)
open Config
open Reload
open KeyProtocol (Hashes httpNonce)
open KeyProtocol.Firmware (Httpd getHeader httpNonceBytes)
open HostClaim (Curve claimedPsk derivePsk)
open Claim (Ecdh)
open RefusedClaim (ClaimEnv Nvs Response claimPost boot)
open Revoke (revoke)
open StatusJson (Status)

variable {H : Hashes} {c : Curve} {m : Ecdh} {site : Site} {s s' : State}

def Gone (s : State) (i : ℕ) : Prop := i < s.next ∧ ∀ p ∈ s.posts, p.1 ≠ i

structure Holds (s : State) (k : Psk) : Prop where
  claimed : s.board.ram.claimed = true
  psk : s.board.ram.psk = k
  flash : s.board.flash = some k

def Lost (s : State) : Prop := ∀ i, s.saved = some i → s.holder ≠ some i

section Board

variable {i : ℕ}

theorem mem_take {i j : ℕ} {post : Post} : (j, post) ∈ s.take i ↔ (j, post) ∈ s.posts ∧ j ≠ i := by
  simp [State.take, List.mem_filter]

theorem gone_take (h : ∀ p ∈ s.posts, p.1 < s.next) {post : Post} (hpost : (i, post) ∈ s.posts) :
    i < s.next ∧ ∀ p ∈ s.take i, p.1 ≠ i :=
  ⟨h _ hpost, fun _ hp => (mem_take.mp hp).2⟩

theorem serveClaim_served (i : ℕ) (received : Bytes) (env : ClaimEnv) :
    ∃ b r, ClaimServed c m s.board received (b, r) ∧ serveClaim c m s i received env =
      { s with
        board := b, posts := s.take i, replies := (i, r) :: s.replies
        holder := if r.status = 200 ∨ b.flash ≠ s.board.flash then some i else s.holder } :=
  ⟨_, _, claimPost_served env received, rfl⟩

theorem serveUnclaim_served (httpd : Httpd) (i : ℕ) (headers : Bytes) (nvs : Nvs) :
    ∃ b r, UnclaimServed s.board (b, r) ∧ serveUnclaim H httpd s i headers nvs =
      { s with
        board := b, posts := s.take i, replies := (i, r) :: s.replies
        holder := if b.flash = none then none else s.holder } :=
  ⟨_, _, unclaimPost_served httpd headers nvs, rfl⟩

structure Same (s s' : State) : Prop where
  board : s'.board = s.board
  posts : s'.posts = s.posts
  replies : s'.replies = s.replies
  next : s'.next = s.next
  holder : s'.holder = s.holder

inductive Traffic (H : Hashes) (c : Curve) (m : Ecdh) (site : Site) (s : State) : State → Prop
  | same {s' : State} (h : Same s s') : Traffic H c m site s s'
  | sent (post : Post) (cli : Cli) : Traffic H c m site s (s.send post cli)
  | dropped (i : ℕ) : Traffic H c m site s { s with posts := s.take i }
  | serveClaim (i n : ℕ) (body : Bytes) (env : ClaimEnv) (hpost : (i, .claim body) ∈ s.posts) :
      Traffic H c m site s (serveClaim c m s i (body.take n) env)
  | serveUnclaim (i : ℕ) (headers : Bytes) (nvs : Nvs) (hpost : (i, .unclaim headers) ∈ s.posts) :
      Traffic H c m site s (serveUnclaim H site.httpd s i headers nvs)
  | bumped : Traffic H c m site s { s with board.ram.httpCounter := s.board.ram.httpCounter + 1 }
  | rebooted (rand : Block 16) : Traffic H c m site s { s with board := boot s.board.flash rand }

theorem Step.traffic (hs : Step H c m site s s') : Traffic H c m site s s' := by
  cases hs with
  | claim => exact .sent _ _
  | unclaim => exact .sent _ _
  | stranger => exact .sent _ _
  | drop i => exact .dropped i
  | serveClaim i n body env hpost => exact .serveClaim i n body env hpost
  | serveUnclaim i headers nvs hpost => exact .serveUnclaim i headers nvs hpost
  | bump => exact .bumped
  | reboot rand => exact .rebooted rand
  | answered i bdaddr r =>
    unfold Ownership.answered
    split <;> exact .same ⟨rfl, rfl, rfl, rfl, rfl⟩
  | quiet => exact .same ⟨rfl, rfl, rfl, rfl, rfl⟩
  | unclaimed => exact .same ⟨rfl, rfl, rfl, rfl, rfl⟩
  | revoke => exact .same ⟨rfl, rfl, rfl, rfl, rfl⟩
  | save => exact .same ⟨rfl, rfl, rfl, rfl, rfl⟩
  | release => exact .same ⟨rfl, rfl, rfl, rfl, rfl⟩
  | abort => exact .same ⟨rfl, rfl, rfl, rfl, rfl⟩

theorem Gone.step (h : Gone s i) (hs : Step H c m site s s') : Gone s' i := by
  obtain ⟨hlt, hposts⟩ := h
  have htake (j : ℕ) : ∀ p ∈ s.take j, p.1 ≠ i := fun p hp => hposts p (List.mem_filter.mp hp).1
  cases hs.traffic with
  | same h => exact ⟨h.next ▸ hlt, h.posts ▸ hposts⟩
  | sent post cli =>
    refine ⟨Nat.lt_succ_of_lt hlt, ?_⟩
    intro p hp
    rcases List.mem_cons.mp hp with rfl | hp
    · exact Nat.ne_of_gt hlt
    · exact hposts p hp
  | dropped j => exact ⟨hlt, htake j⟩
  | serveClaim j => exact ⟨hlt, htake j⟩
  | serveUnclaim j => exact ⟨hlt, htake j⟩
  | bumped => exact ⟨hlt, hposts⟩
  | rebooted => exact ⟨hlt, hposts⟩

theorem holds_step (h : Gone s i) (hs : Step H c m site s s') (hholder : s'.holder = some i) :
    s.holder = some i ∧ ∀ k, Holds s k → Holds s' k := by
  have hne {j : ℕ} {post : Post} (hpost : (j, post) ∈ s.posts) : some j ≠ some i := by
    rw [Ne, Option.some.injEq]
    exact h.2 _ hpost
  cases hs.traffic with
  | same h =>
    rw [h.holder] at hholder
    exact ⟨hholder, fun k hk => ⟨h.board ▸ hk.claimed, h.board ▸ hk.psk, h.board ▸ hk.flash⟩⟩
  | sent post cli => exact ⟨hholder, fun k hk => ⟨hk.claimed, hk.psk, hk.flash⟩⟩
  | dropped => exact ⟨hholder, fun k hk => ⟨hk.claimed, hk.psk, hk.flash⟩⟩
  | serveClaim j n body env hpost =>
    obtain ⟨b, r, hserved, heq⟩ := serveClaim_served (c := c) (m := m) (s := s) j (body.take n) env
    rw [heq] at hholder ⊢
    dsimp only at hholder
    split at hholder
    case isTrue => exact absurd hholder (hne hpost)
    case isFalse =>
      refine ⟨hholder, fun k hk => ?_⟩
      cases hserved with
      | claimed r hclaimed hr => exact ⟨hk.claimed, hk.psk, hk.flash⟩
      | refused b' r hclaimed hr => exact absurd hk.claimed (by simp [hclaimed])
      | accepted b' peer d z hclaimed => exact absurd hk.claimed (by simp [hclaimed])
  | serveUnclaim j headers nvs hpost =>
    obtain ⟨b, r, hserved, heq⟩ := serveUnclaim_served (H := H) (s := s) site.httpd j headers nvs
    rw [heq] at hholder ⊢
    dsimp only at hholder
    split at hholder
    case isTrue => cases hholder
    case isFalse hflash =>
      refine ⟨hholder, fun k hk => ?_⟩
      cases hserved with
      | refused flash r hcases hr =>
        rcases hcases with rfl | rfl
        · exact ⟨hk.claimed, hk.psk, hk.flash⟩
        · exact absurd rfl hflash
      | accepted b' r hram hnone => exact absurd hnone hflash
  | bumped => exact ⟨hholder, fun k hk => ⟨hk.claimed, hk.psk, hk.flash⟩⟩
  | rebooted rand =>
    refine ⟨hholder, fun k hk => ?_⟩
    have hflash := hk.flash
    refine ⟨?_, ?_, hk.flash⟩
    · simp [boot, Claim.authInit, hflash]
    · simp [boot, Claim.authInit, hflash]

end Board

def Paired (site : Site) (s : State) : Prop := ∃ k, Holds s k ∧ site.Written s.files ∧ site.key s.files = some k

def Task (c : Curve) (site : Site) (s : State) : Prop :=
  match s.cli with
  | .idle => True
  | .claiming i status secretKey =>
    Lost s ∧ i < s.next ∧ (∃ info, HostClaim.boardInfo status = some info ∧ info.bdaddr = bdaddrText site.mac) ∧
      (∀ post, (i, post) ∈ s.posts → post = .claim (hexlify (c.publicKey secretKey).bytes)) ∧
      ∀ r, (i, r) ∈ s.replies → r.status = 200 → s.holder = some i →
        ∃ k, claimedPsk c secretKey 200 r.body = some k ∧ Holds s k
  | .unclaiming i bdaddr =>
    bdaddr = bdaddrText site.mac ∧ i < s.next ∧ (∀ post, (i, post) ∈ s.posts → ∃ headers, post = .unclaim headers) ∧
      ∀ r, (i, r) ∈ s.replies → r.status = 200 → Lost s
  | .releasing bdaddr => bdaddr = bdaddrText site.mac ∧ Lost s

structure Inv (c : Curve) (site : Site) (s : State) : Prop where
  posts : ∀ p ∈ s.posts, p.1 < s.next
  replies : ∀ r ∈ s.replies, Gone s r.1
  holder : ∀ i, s.holder = some i → Gone s i
  saved : ∀ i, s.saved = some i → Gone s i
  files : site.Has s.files
  kept : ∀ i, s.saved = some i → s.holder = some i → Paired site s
  task : Task c site s

section Step

theorem posts_step (h : ∀ p ∈ s.posts, p.1 < s.next) (hs : Step H c m site s s') : ∀ p ∈ s'.posts, p.1 < s'.next := by
  have htake (i : ℕ) : ∀ p ∈ s.take i, p.1 < s.next := fun p hp => h p (List.mem_filter.mp hp).1
  cases hs.traffic with
  | same hsame => rwa [hsame.posts, hsame.next]
  | sent post cli =>
    intro p hp
    rcases List.mem_cons.mp hp with rfl | hp
    · exact Nat.lt_succ_self _
    · exact Nat.lt_succ_of_lt (h p hp)
  | dropped i => exact htake i
  | serveClaim i => exact htake i
  | serveUnclaim i => exact htake i
  | bumped => exact h
  | rebooted => exact h

inductive Answered (c : Curve) (s s' : State) (i : ℕ) (r : Response) : Prop
  | claim (body : Bytes) (hpost : (i, .claim body) ∈ s.posts) (h : r.status = 200 → ∀ secretKey,
      body = hexlify (c.publicKey secretKey).bytes → ∃ k, claimedPsk c secretKey 200 r.body = some k ∧ Holds s' k)
  | unclaim (headers : Bytes) (hpost : (i, .unclaim headers) ∈ s.posts) (h : r.status = 200 → s'.holder = none)

theorem claimed_of_served (hcomm : ∀ a b z, m.computeShared b (c.publicKey a) = some z →
      c.scalarmult a (m.genPublic b) = some z) {b b' : RefusedClaim.State} {secretKey : Block 32} {n : ℕ} {r : Response}
    (h : ClaimServed c m b ((hexlify (c.publicKey secretKey).bytes).take n) (b', r)) (hr : r.status = 200) :
    ∃ k, claimedPsk c secretKey 200 r.body = some k ∧ b'.ram.claimed = true ∧ b'.ram.psk = k ∧ b'.flash = some k := by
  cases h with
  | claimed r hclaimed hne => exact absurd hr hne
  | refused b' r hclaimed hne => exact absurd hr hne
  | accepted b' peer d z hclaimed hlen hpeer hz hram hpsk hflash =>
    have hpeer := Claim.scanPeer_hexlify hlen hpeer
    subst hpeer
    refine ⟨c.sha256 z.bytes, ?_, hram, hpsk, hpsk ▸ hflash⟩
    rw [Claim.claimedPsk_reply, derivePsk, hcomm _ _ _ hz, Option.map_some]

theorem replies_cases (hcomm : ∀ a b z, m.computeShared b (c.publicKey a) = some z →
      c.scalarmult a (m.genPublic b) = some z) (hposts : ∀ p ∈ s.posts, p.1 < s.next) (hs : Step H c m site s s')
    {i : ℕ} {r : Response} (hr : (i, r) ∈ s'.replies) : (i, r) ∈ s.replies ∨ Gone s' i ∧ Answered c s s' i r := by
  cases hs.traffic with
  | same h => exact .inl (h.replies ▸ hr)
  | sent => exact .inl hr
  | dropped => exact .inl hr
  | bumped => exact .inl hr
  | rebooted => exact .inl hr
  | serveClaim j n body env hpost =>
    obtain ⟨b, r', hserved, heq⟩ := serveClaim_served (c := c) (m := m) (s := s) j (body.take n) env
    rw [heq] at hr ⊢
    rcases List.mem_cons.mp hr with hr | hr
    · cases hr
      refine .inr ⟨gone_take hposts hpost, .claim body hpost ?_⟩
      rintro hstatus secretKey rfl
      obtain ⟨k, hk, hclaimed, hpsk, hflash⟩ := claimed_of_served hcomm hserved hstatus
      exact ⟨k, hk, hclaimed, hpsk, hflash⟩
    · exact .inl hr
  | serveUnclaim j headers nvs hpost =>
    obtain ⟨b, r', hserved, heq⟩ := serveUnclaim_served (H := H) (s := s) site.httpd j headers nvs
    rw [heq] at hr ⊢
    rcases List.mem_cons.mp hr with hr | hr
    · cases hr
      refine .inr ⟨gone_take hposts hpost, .unclaim headers hpost fun hstatus => ?_⟩
      cases hserved with
      | refused flash r hflash hne => exact absurd hstatus hne
      | accepted b' r hram hflash => exact if_pos hflash
    · exact .inl hr

theorem holder_cases (hposts : ∀ p ∈ s.posts, p.1 < s.next) (hs : Step H c m site s s') {i : ℕ}
    (hi : s'.holder = some i) : s.holder = some i ∨ Gone s' i := by
  cases hs.traffic with
  | same h => exact .inl (h.holder ▸ hi)
  | sent => exact .inl hi
  | dropped => exact .inl hi
  | bumped => exact .inl hi
  | rebooted => exact .inl hi
  | serveClaim j n body env hpost =>
    obtain ⟨b, r, hserved, heq⟩ := serveClaim_served (c := c) (m := m) (s := s) j (body.take n) env
    rw [heq] at hi ⊢
    dsimp only at hi
    split at hi
    case isTrue =>
      cases hi
      exact .inr (gone_take hposts hpost)
    case isFalse => exact .inl hi
  | serveUnclaim j headers nvs hpost =>
    obtain ⟨b, r, hserved, heq⟩ := serveUnclaim_served (H := H) (s := s) site.httpd j headers nvs
    rw [heq] at hi
    dsimp only at hi
    split at hi
    case isTrue => cases hi
    case isFalse => exact .inl hi

structure Remote (s s' : State) : Prop where
  cli : s'.cli = s.cli
  files : s'.files = s.files
  saved : s'.saved = s.saved
  posts : ∀ p ∈ s'.posts, p ∈ s.posts ∨ p.1 = s.next
  next : s.next ≤ s'.next

theorem Lost.step (h : Lost s) (hgone : ∀ i, s.saved = some i → Gone s i) (hsaved : s'.saved = s.saved)
    (hs : Step H c m site s s') : Lost s' := by
  intro i hi hholder
  rw [hsaved] at hi
  exact h i hi (holds_step (hgone i hi) hs hholder).1

theorem Inv.task_remote (hi : Inv c site s) (hcomm : ∀ a b z, m.computeShared b (c.publicKey a) = some z →
      c.scalarmult a (m.genPublic b) = some z) (hr : Remote s s') (hs : Step H c m site s s') : Task c site s' := by
  have hposted {i : ℕ} {post : Post} (hlt : i < s.next) (hpost : (i, post) ∈ s'.posts) : (i, post) ∈ s.posts := by
    rcases hr.posts _ hpost with hpost | heq
    · exact hpost
    · exact absurd heq (Nat.ne_of_lt hlt)
  have htask := hi.task
  unfold Task at htask ⊢
  rw [hr.cli]
  split at htask
  case h_1 => trivial
  case h_2 i status secretKey hcli =>
    obtain ⟨hlost, hlt, hinfo, hposts, hreplies⟩ := htask
    refine ⟨hlost.step hi.saved hr.saved hs, Nat.lt_of_lt_of_le hlt hr.next, hinfo,
      fun post hpost => hposts post (hposted hlt hpost), ?_⟩
    intro r hreply hstatus hholder
    rcases replies_cases hcomm hi.posts hs hreply with hreply | ⟨-, hanswer⟩
    · obtain ⟨hheld, hmono⟩ := holds_step (hi.replies _ hreply) hs hholder
      obtain ⟨k, hk, hholds⟩ := hreplies r hreply hstatus hheld
      exact ⟨k, hk, hmono k hholds⟩
    · cases hanswer with
      | claim body hpost h =>
        have hbody := hposts _ hpost
        rw [Post.claim.injEq] at hbody
        exact h hstatus secretKey hbody
      | unclaim headers hpost h => cases hposts _ hpost
  case h_3 i bdaddr hcli =>
    obtain ⟨hbdaddr, hlt, hposts, hreplies⟩ := htask
    refine ⟨hbdaddr, Nat.lt_of_lt_of_le hlt hr.next, fun post hpost => hposts post (hposted hlt hpost), ?_⟩
    intro r hreply hstatus
    rcases replies_cases hcomm hi.posts hs hreply with hreply | ⟨-, hanswer⟩
    · exact (hreplies r hreply hstatus).step hi.saved hr.saved hs
    · cases hanswer with
      | claim body hpost h =>
        obtain ⟨headers, hheaders⟩ := hposts _ hpost
        cases hheaders
      | unclaim headers hpost h =>
        intro j hj hholder
        rw [h hstatus] at hholder
        cases hholder
  case h_4 bdaddr hcli => exact ⟨htask.1, htask.2.step hi.saved hr.saved hs⟩

theorem Paired.same (h : Paired site s) (hfiles : s'.files = s.files) (hmono : ∀ k, Holds s k → Holds s' k) :
    Paired site s' := by
  obtain ⟨k, hholds, hwritten, hkey⟩ := h
  exact ⟨k, hmono k hholds, hfiles ▸ hwritten, hfiles ▸ hkey⟩

theorem Inv.lost (hi : Inv c site s) (hclaimed : s.board.ram.claimed = false) : Lost s := by
  intro i hsaved hholder
  obtain ⟨k, hholds, -⟩ := hi.kept i hsaved hholder
  rw [hholds.claimed] at hclaimed
  cases hclaimed

section

variable (hcomm : ∀ a b z, m.computeShared b (c.publicKey a) = some z → c.scalarmult a (m.genPublic b) = some z)
include hcomm

theorem Inv.of_step (hi : Inv c site s) (hs : Step H c m site s s')
    (hsaved : ∀ i, s'.saved = some i → s.saved = some i ∨ Gone s' i) (hfiles : site.Has s'.files)
    (hkept : ∀ i, s'.saved = some i → s'.holder = some i → Paired site s') (htask : Task c site s') :
    Inv c site s' := by
  refine ⟨posts_step hi.posts hs, ?_, ?_, ?_, hfiles, hkept, htask⟩
  · rintro ⟨i, r⟩ hr
    rcases replies_cases hcomm hi.posts hs hr with hr | ⟨hgone, -⟩
    · exact (hi.replies _ hr).step hs
    · exact hgone
  · intro i hholder
    rcases holder_cases hi.posts hs hholder with hholder | hgone
    · exact (hi.holder i hholder).step hs
    · exact hgone
  · intro i hi'
    rcases hsaved i hi' with hi' | hgone
    · exact (hi.saved i hi').step hs
    · exact hgone

theorem Inv.of_same (hi : Inv c site s) (hs : Step H c m site s s') (hsaved : s'.saved = s.saved)
    (hfiles : s'.files = s.files) (htask : Task c site s') : Inv c site s' := by
  refine hi.of_step hcomm hs ?_ (hfiles ▸ hi.files) ?_ htask
  · intro i hi'
    rw [hsaved] at hi'
    exact .inl hi'
  · intro i hi' hholder
    rw [hsaved] at hi'
    obtain ⟨hheld, hmono⟩ := holds_step (hi.saved i hi') hs hholder
    exact (hi.kept i hi' hheld).same hfiles hmono

theorem Inv.of_remote (hi : Inv c site s) (hr : Remote s s') (hs : Step H c m site s s') : Inv c site s' :=
  hi.of_same hcomm hs hr.saved hr.files (hi.task_remote hcomm hr hs)

theorem Inv.of_save (hi : Inv c site s) {disk : HostClaim.Disk} {i : ℕ} {status : Bytes} {secretKey : Block 32}
    {r : Response} (hcli : s.cli = .claiming i status secretKey) (hr : (i, r) ∈ s.replies)
    (hs : Step H c m site s (save c site s disk i status secretKey r)) :
    Inv c site (save c site s disk i status secretKey r) := by
  have htask := hi.task
  rw [Task, hcli] at htask
  obtain ⟨hlost, -, ⟨info, hinfo, hbdaddr⟩, -, hreplies⟩ := htask
  cases hclaim : HostClaim.claim c disk s.files site.cfgPath status secretKey r.status r.body with
  | mk code files =>
    obtain ⟨hhas, hwell⟩ := site.claim_spec hi.files hinfo hbdaddr hclaim
    have heq : save c site s disk i status secretKey r =
        { s with files := files, cli := .idle, saved := if code = some 0 then some i else s.saved } := by
      rw [save, hclaim]
    rw [heq] at hs ⊢
    refine hi.of_step hcomm hs ?_ hhas ?_ trivial
    · intro j hj
      by_cases hcode : code = some 0
      · obtain rfl : i = j := by simpa [hcode] using hj
        exact .inr ((hi.replies _ hr).step hs)
      · exact .inl (by simpa [hcode] using hj)
    · intro j hj hholder
      by_cases hcode : code = some 0
      · obtain rfl : i = j := by simpa [hcode] using hj
        obtain ⟨psk, hpsk, hwritten, hkey⟩ := hwell hcode
        have hstatus : r.status = 200 := by
          by_contra hne
          rw [claimedPsk, if_pos hne] at hpsk
          cases hpsk
        obtain ⟨k, hk, hholds⟩ := hreplies r hr hstatus hholder
        rw [hstatus, hk, Option.some.injEq] at hpsk
        subst hpsk
        exact ⟨k, ⟨hholds.claimed, hholds.psk, hholds.flash⟩, hwritten, hkey⟩
      · exact absurd hholder (hlost j (by simpa [hcode] using hj))

theorem Inv.step (hi : Inv c site s) (hs : Step H c m site s s') : Inv c site s' := by
  have hfresh {post : Post} (hpost : (s.next, post) ∈ s.posts) : False := Nat.lt_irrefl _ (hi.posts _ hpost)
  have hunanswered {r : Response} (hr : (s.next, r) ∈ s.replies) : False := Nat.lt_irrefl _ (hi.replies _ hr).1
  have hs' := hs
  cases hs with
  | quiet => exact hi
  | claim status info secretKey hcli hclaimed hinfo hbdaddr =>
    refine hi.of_same hcomm hs' rfl rfl ⟨hi.lost hclaimed, Nat.lt_succ_self _, ⟨info, hinfo, hbdaddr⟩, ?_, ?_⟩
    · intro post hpost
      rcases List.mem_cons.mp hpost with heq | hpost
      · cases heq
        rfl
      · exact (hfresh hpost).elim
    · intro r hr
      exact (hunanswered hr).elim
  | unclaim headers hcli =>
    refine hi.of_same hcomm hs' rfl rfl ⟨rfl, Nat.lt_succ_self _, ?_, ?_⟩
    · intro post hpost
      rcases List.mem_cons.mp hpost with heq | hpost
      · cases heq
        exact ⟨headers, rfl⟩
      · exact (hfresh hpost).elim
    · intro r hr
      exact (hunanswered hr).elim
  | unclaimed hcli hclaimed => exact hi.of_same hcomm hs' rfl rfl ⟨rfl, hi.lost hclaimed⟩
  | revoke disk hcli =>
    refine hi.of_step hcomm hs' nofun (site.revoke_spec hi.files disk rfl).1 nofun ?_
    rw [Task, hcli]
    trivial
  | save disk i status secretKey r hcli hr => exact hi.of_save hcomm hcli hr hs'
  | answered i bdaddr r hcli hr =>
    have htask := hi.task
    rw [Task, hcli] at htask
    obtain ⟨hbdaddr, -, -, hreplies⟩ := htask
    unfold answered at hs' ⊢
    split
    case isTrue hstatus =>
      rw [if_pos hstatus] at hs'
      exact hi.of_same hcomm hs' rfl rfl ⟨hbdaddr, hreplies r hr hstatus⟩
    case isFalse hstatus =>
      rw [if_neg hstatus] at hs'
      exact hi.of_same hcomm hs' rfl rfl trivial
  | release disk bdaddr hcli =>
    have htask := hi.task
    rw [Task, hcli] at htask
    obtain ⟨rfl, hlost⟩ := htask
    refine hi.of_step hcomm hs' (fun i => .inl) (site.revoke_spec hi.files disk rfl).1 ?_ trivial
    intro i hsaved hholder
    exact absurd hholder (hlost i hsaved)
  | abort => exact hi.of_same hcomm hs' rfl rfl trivial
  | stranger post =>
    refine hi.of_remote hcomm ⟨rfl, rfl, rfl, ?_, Nat.le_succ _⟩ hs'
    intro p hp
    rcases List.mem_cons.mp hp with rfl | hp
    · exact .inr rfl
    · exact .inl hp
  | drop i => exact hi.of_remote hcomm ⟨rfl, rfl, rfl, fun p hp => .inl (List.mem_filter.mp hp).1, le_refl _⟩ hs'
  | serveClaim i => exact hi.of_remote hcomm ⟨rfl, rfl, rfl, fun p hp => .inl (List.mem_filter.mp hp).1, le_refl _⟩ hs'
  | serveUnclaim i =>
    exact hi.of_remote hcomm ⟨rfl, rfl, rfl, fun p hp => .inl (List.mem_filter.mp hp).1, le_refl _⟩ hs'
  | bump => exact hi.of_remote hcomm ⟨rfl, rfl, rfl, fun p hp => .inl hp, le_refl _⟩ hs'
  | reboot => exact hi.of_remote hcomm ⟨rfl, rfl, rfl, fun p hp => .inl hp, le_refl _⟩ hs'

theorem Reachable.inv (h : Reachable H c m site s) : Inv c site s := by
  refine h.invariant (Inv c site) ?_ ?_
  · rintro s ⟨flash, rand, rfl⟩
    exact ⟨nofun, nofun, nofun, nofun, site.has_files, nofun, trivial⟩
  · intro s l s' _ hi _ hs
    exact hi.step hcomm (step_cases hs)

end

end Step

section Owner

def sound : Nvs := ⟨true, true, true, false⟩

def Unclaimed (H : Hashes) (site : Site) (s s' : State) : Prop :=
  ∃ i headers nvs, (i, .unclaim headers) ∈ s.posts ∧ s' = serveUnclaim H site.httpd s i headers nvs ∧
    Claim.ShowProofs H s.board.ram.psk s.board.ram (getHeader site.httpd headers (ascii "X-Bridge-Auth") 80)
      (getHeader site.httpd headers (ascii "X-Bridge-Pre") 80)

def releasing (s : State) (status : Status) (disk : Revoke.Disk) : List Label :=
  [.unclaim status, .serveUnclaim s.next sound, .answered, .release disk]

section Vector

def vectorStatus : Status where
  version := ⟨ascii "v0.10.9", by decide, by decide⟩
  boardId := ⟨ascii "esp32", by decide, by decide⟩
  boardId_ne := by decide
  idf := ⟨ascii "v5.5", by decide, by decide⟩
  running := none
  mac := .fill 6 0
  auth := ⟨.fill 32 0, false, .fill 16 0, 0⟩
  time := 0
  prevStage := 0
  reset := 1
  freeHeap := 0
  stats := ⟨0, 0, 0, 0, 0, 0, 0⟩
  connected := false

end Vector

end Owner

end HciBridge.Ownership
