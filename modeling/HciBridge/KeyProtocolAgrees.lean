import HciBridge.KeyProtocol

namespace HciBridge.KeyProtocol

open Text
open Auth (Bytes Block Psk Nonce Digest HttpNonce ascii decimal hexlify be32 hexToNonce ipText bdaddrText)
open Firmware

theorem take_text_mem (s : CString) : s.mem.take (strlen s.mem) = s.text := by rw [strlen_mem, take_mem]

theorem announceInput_eq (bdaddr : CString) {port : ℕ} (name : CString) (ip : Block 4) (h : port ≤ 65535) :
    announceInput bdaddr port name (ipString ip) = (Zig.announceParts bdaddr.text port name.text ip).flatten := by
  have hlen : (decimal port).length ≤ 5 := Discovery.decimal_length_le (by decide) (by omega)
  have hport : ((decimal port).take 7 ++ [0]).take (decimal port).length = decimal port := by
    rw [List.take_of_length_le (Nat.le_trans hlen (by decide)), List.take_left]
  have htab : (literal "\t").take 1 = ascii "\t" := by decide
  simp only [announceInput, fed, List.zipWith_cons_cons, List.zipWith_nil_left, take_text_mem, hport, htab]
  rfl

theorem be32_eq (n : UInt32) : be32 n = Zig.writeInt32 n.toNat := by
  simp only [be32, Zig.writeInt32, List.cons.injEq, and_true, ← UInt8.toNat_inj, UInt32.toNat_toUInt8,
    UInt32.toNat_shiftRight, Nat.shiftRight_eq_div_pow, Nat.toUInt8_eq, UInt8.toNat_ofNat']
  exact ⟨rfl, rfl, rfl⟩

theorem httpNonceBytes_length (b : Board) : (httpNonceBytes b).length = 20 := by
  simp [httpNonceBytes, b.httpRand.length_eq]

def httpNonce (b : Board) : HttpNonce := ⟨httpNonceBytes b, httpNonceBytes_length b⟩

theorem hexToNonce_nonceHex (b : Board) : hexToNonce (nonceHex b 41) = some (httpNonce b) :=
  Auth.hexToBlock_hexlify (httpNonce b)

theorem httpInput_eq (H : Hashes) (b : Board) (method path : CString) (body : Bytes) :
    fed (httpParts b method path (H.sha256 body)) (httpLens method path) 6 =
      (Zig.httpAuthParts H method.text path.text (httpNonce b) body).flatten := by
  have hspace : (literal " ").take 1 = ascii " " := by decide
  have hline : (literal "\n").take 1 = ascii "\n" := by decide
  have hnonce : (httpNonceBytes b).take 20 = (httpNonce b).bytes :=
    List.take_of_length_le (Nat.le_of_eq (httpNonceBytes_length b))
  have hsha : (H.sha256 body).bytes.take 32 = (H.sha256 body).bytes :=
    List.take_of_length_le (Nat.le_of_eq (H.sha256 body).length_eq)
  simp only [fed, httpParts, httpLens, List.zipWith_cons_cons, List.zipWith_nil_left, take_text_mem, hspace,
    hline, hnonce, hsha]
  rfl

theorem preInput_eq (b : Board) (method path : CString) {len : ℕ} (h : len ≤ 4294967295) :
    fed (preParts b method path len.toUInt32) (preLens method path) 7 =
      (Zig.httpPreParts method.text path.text (httpNonce b) len).flatten := by
  have hpre : (literal "PRE ").take 4 = ascii "PRE " := by decide
  have hspace : (literal " ").take 1 = ascii " " := by decide
  have hline : (literal "\n").take 1 = ascii "\n" := by decide
  have hnonce : (httpNonceBytes b).take 20 = (httpNonce b).bytes :=
    List.take_of_length_le (Nat.le_of_eq (httpNonceBytes_length b))
  have hlen : (be32 len.toUInt32).take 4 = Zig.writeInt32 len := by
    have htake : (be32 len.toUInt32).take 4 = be32 len.toUInt32 := rfl
    rw [htake, be32_eq, Nat.toUInt32_eq, UInt32.toNat_ofNat_of_lt' (Nat.lt_succ_of_le h)]
  simp only [fed, preParts, preLens, List.zipWith_cons_cons, List.zipWith_nil_left, take_text_mem, hpre, hspace,
    hline, hnonce, hlen]
  rfl

theorem nibble_hexDigit {n : ℕ} (h : n < 16) : nibble (Auth.hexDigit n) = some n := by
  unfold Auth.hexDigit
  interval_cases n <;> decide

theorem unhex_hexlify (bs rest : Bytes) : unhex (hexlify bs ++ rest) bs.length = some bs := by
  induction bs with
  | nil => rw [List.length_nil, unhex]
  | cons b bs ih =>
    have hb := b.toNat_lt
    have hhi := nibble_hexDigit (n := b.toNat / 16) (by omega)
    have hlo := nibble_hexDigit (n := b.toNat % 16) (by omega)
    have hval : b.toNat / 16 * 16 + b.toNat % 16 = b.toNat := by omega
    have hcons : hexlify (b :: bs) ++ rest =
        Auth.hexDigit (b.toNat / 16) :: Auth.hexDigit (b.toNat % 16) :: (hexlify bs ++ rest) := rfl
    rw [hcons, List.length_cons, unhex]
    simp only [hhi, hlo, ih, Option.map_some, hval, Nat.toUInt8_eq, UInt8.ofNat_toNat]

theorem lower_of_nibble : ∀ c, ∀ n ∈ nibble c, lower c = Auth.hexDigit n ∧ n < 16 :=
  forall_byte (by decide +kernel)

theorem lower_of_unhex {text bs : Bytes} {n : ℕ} (h : unhex text n = some bs) :
    (text.take (2 * n)).map lower = hexlify bs := by
  induction n generalizing text bs with
  | zero =>
    rw [unhex, Option.some.injEq] at h
    rw [← h]
    rfl
  | succ n ih =>
    obtain _ | ⟨hi, _ | ⟨lo, rest⟩⟩ := text
    · cases h
    · cases h
    · simp only [unhex] at h
      split at h
      case h_1 x y hx hy =>
        obtain ⟨vs, hvs, rfl⟩ := Option.map_eq_some_iff.mp h
        obtain ⟨hhi, hx16⟩ := lower_of_nibble hi x hx
        obtain ⟨hlo, hy16⟩ := lower_of_nibble lo y hy
        have hval : (x * 16 + y).toUInt8.toNat = x * 16 + y := by
          rw [Nat.toUInt8_eq, UInt8.toNat_ofNat']
          omega
        have htext : hexlify ((x * 16 + y).toUInt8 :: vs) = Auth.hexDigit x :: Auth.hexDigit y :: hexlify vs := by
          simp only [hexlify, List.flatMap_cons, hval, List.cons_append, List.nil_append]
          rw [show (x * 16 + y) / 16 = x by omega, show (x * 16 + y) % 16 = y by omega]
        rw [htext, Nat.mul_succ, List.take_succ_cons, List.take_succ_cons, List.map_cons, List.map_cons, hhi, hlo,
          ih hvs]
      case h_2 => cases h

def Shows (header : CString) (mac : Digest) : Prop := eqlIgnoreCase header.text (hexlify mac.bytes) = true

theorem shows_of_checkMac {H : Hashes} {b : Board} {header : Option CString} {parts : List Bytes} {lens : List ℕ}
    {n : ℕ} (h : checkMac H b header parts lens n = true) :
    b.claimed = true ∧ ∃ s, header = some s ∧ Shows s (hmacParts H b.psk parts lens n) := by
  unfold checkMac at h
  rw [Bool.and_eq_true] at h
  obtain ⟨hclaimed, h⟩ := h
  cases header with
  | none => cases h
  | some s =>
    simp only [Bool.and_eq_true, decide_eq_true_eq, strlen_mem] at h
    obtain ⟨hlen, hunhex⟩ := h
    refine ⟨hclaimed, s, rfl, ?_⟩
    have htext : s.mem.take (2 * 32) = s.text := by
      have := take_mem s
      rwa [hlen] at this
    have hlower := lower_of_unhex hunhex
    have hlower' : (hexlify (hmacParts H b.psk parts lens n).bytes).map lower =
        hexlify (hmacParts H b.psk parts lens n).bytes := by
      apply (List.map_congr_left fun c hc => ?_).trans (List.map_id _)
      obtain ⟨k, hk, rfl⟩ := Auth.mem_hexlify hc
      interval_cases k <;> rfl
    rw [Shows, eqlIgnoreCase_iff, hlower', ← hlower, htext]

theorem checkMac_hexlify (H : Hashes) {b : Board} (hclaimed : b.claimed = true) {header : CString}
    {parts : List Bytes} {lens : List ℕ} {n : ℕ}
    (h : header.text = hexlify (hmacParts H b.psk parts lens n).bytes) :
    checkMac H b (some header) parts lens n = true := by
  have hlen : strlen header.mem = 64 := by
    rw [strlen_mem, h, Auth.hexlify_length, (hmacParts H b.psk parts lens n).length_eq]
  have hunhex : unhex header.mem 32 = some (hmacParts H b.psk parts lens n).bytes := by
    have := unhex_hexlify (hmacParts H b.psk parts lens n).bytes [0]
    rwa [(hmacParts H b.psk parts lens n).length_eq, ← h] at this
  simp only [checkMac, hclaimed, hlen, hunhex, decide_true, Bool.and_self]

theorem getHeader_of_finds {httpd : Httpd} {req name : Bytes} {mac : Digest}
    (h : httpd.Finds req name (hexlify mac.bytes)) :
    ∃ s : CString, getHeader httpd req name 80 = some s ∧ s.text = hexlify mac.bytes := by
  have hlen : (hexlify mac.bytes).length = 64 := by rw [Auth.hexlify_length, mac.length_eq]
  obtain ⟨hn, hstr⟩ := h
  obtain ⟨s, hs, htext⟩ := hstr 80 (by omega)
  refine ⟨s, ?_, htext⟩
  simp only [getHeader, hn, hlen]
  rw [if_neg (by omega), hs]

theorem authHeaders_accepted (H : Hashes) {httpd : Httpd} (hfinds : httpd.FindsProofs) (b b' : Board)
    (method path : CString) {body : Bytes} (hclaimed : b'.claimed = true)
    (hnonce : httpNonceBytes b' = httpNonceBytes b)
    (hbody : body.length ≤ 4294967295) :
    ∃ nonce headers auth pre,
      hexToNonce (nonceHex b 41) = some nonce ∧
      Zig.authHeaders H b'.psk method.text path.text (some nonce) body = some headers ∧
      getHeader httpd headers (ascii "X-Bridge-Auth") 80 = some auth ∧
      getHeader httpd headers (ascii "X-Bridge-Pre") 80 = some pre ∧
      checkHttpPre H b' method path body.length.toUInt32 (some pre) = true ∧
      checkHttp H b' method path (H.sha256 body) (some auth) = true := by
  have hsame : httpNonce b' = httpNonce b := Auth.Block.bytes_inj hnonce
  let authMac := Zig.hmac H b'.psk (Zig.httpAuthParts H method.text path.text (httpNonce b) body)
  let preMac := Zig.hmac H b'.psk (Zig.httpPreParts method.text path.text (httpNonce b) body.length)
  obtain ⟨hfindsAuth, hfindsPre⟩ := hfinds authMac preMac _ rfl
  obtain ⟨auth, hauth, hauthtext⟩ := getHeader_of_finds hfindsAuth
  obtain ⟨pre, hpre, hpretext⟩ := getHeader_of_finds hfindsPre
  refine ⟨httpNonce b, _, auth, pre, hexToNonce_nonceHex b, ?_, hauth, hpre, ?_, ?_⟩
  · have hfits : (ascii "X-Bridge-Auth: " ++ hexlify authMac.bytes ++ ascii "\r\nX-Bridge-Pre: " ++
        hexlify preMac.bytes).length ≤ 160 := by
      simp only [List.length_append, Auth.hexlify_length, authMac.length_eq, preMac.length_eq]
      decide
    exact if_pos hfits
  · apply checkMac_hexlify H hclaimed
    rw [hpretext, hmacParts, preInput_eq b' method path hbody, hsame]
    rfl
  · apply checkMac_hexlify H hclaimed
    rw [hauthtext, hmacParts, httpInput_eq H b' method path body, hsame]
    rfl

theorem announceDatagram_accepted (H : Hashes) (b : Board) (mac : Block 6) {port : ℕ} (name : CString)
    (ip : Block 4) {datagram : Bytes} (hclaimed : b.claimed = true) (hport : port ≤ 65535) (hne : name.text ≠ [])
    (htab : 9 ∉ name.text) (h : announceDatagram H b mac port name ip = some datagram) :
    ∃ ann, Discovery.parse datagram = .ok (.announce ann) ∧
      ann.bdaddr = bdaddrText mac ∧ ann.port = port ∧ ann.name = name.text ∧
      Zig.verifyAnnounce H b.psk ann.bdaddr ann.port ann.name ip ann.sig = true := by
  let sig := Zig.announceSig H b.psk (bdaddrText mac) port name.text ip
  have hsig : announceSig H b (bdaddrString mac) port name (ipString ip) 40 = some sig := by
    rw [announceSig, if_neg (by simp [hclaimed]), announceInput_eq _ _ _ hport]
    rfl
  simp only [announceDatagram, hsig] at h
  split at h
  · cases h
  · split at h
    case isFalse => cases h
    case isTrue =>
      cases h
      refine ⟨⟨bdaddrText mac, port, name.text, sig⟩, ?_, rfl, rfl, rfl, decide_eq_true rfl⟩
      apply Discovery.parse_announceText (bdaddrText_length mac) _ hport hne htab
      · exact Auth.notMem_hexlify (by decide)
      · exact notMem_bdaddrText (by decide) (by decide)

theorem key_protocol_agrees (H : Hashes) (httpd : Httpd) (hfinds : httpd.FindsProofs) (b : Board) (sn cn : Nonce)
    (bdaddr name method path : CString) (port : ℕ) (ip : Block 4) (mac : Block 6) (body : Bytes) (hport : port ≤ 65535)
    (hbody : body.length ≤ 4294967295) :
    (clientInput sn cn = (Zig.clientParts sn cn).flatten ∧
      boardInput cn sn = (Zig.boardParts cn sn).flatten ∧
      announceInput bdaddr port name (ipString ip) = (Zig.announceParts bdaddr.text port name.text ip).flatten ∧
      fed (httpParts b method path (H.sha256 body)) (httpLens method path) 6 =
        (Zig.httpAuthParts H method.text path.text (httpNonce b) body).flatten ∧
      fed (preParts b method path body.length.toUInt32) (preLens method path) 7 =
        (Zig.httpPreParts method.text path.text (httpNonce b) body.length).flatten) ∧
    (clientProof H b sn cn = Zig.clientMac H b.psk sn cn ∧
      boardProof H b cn sn = Zig.boardMac H b.psk cn sn ∧
      (b.claimed = true → announceSig H b bdaddr port name (ipString ip) 40 =
        some (Zig.announceSig H b.psk bdaddr.text port name.text ip)) ∧
      hexlify (hmacParts H b.psk (httpParts b method path (H.sha256 body)) (httpLens method path) 6).bytes =
        Zig.httpAuth H b.psk method.text path.text (httpNonce b) body ∧
      hexlify (hmacParts H b.psk (preParts b method path body.length.toUInt32) (preLens method path) 7).bytes =
        Zig.httpPre H b.psk method.text path.text (httpNonce b) body.length) ∧
    (∀ b', b'.claimed = true → httpNonceBytes b' = httpNonceBytes b →
      ∃ nonce headers auth pre,
        hexToNonce (nonceHex b 41) = some nonce ∧
        Zig.authHeaders H b'.psk method.text path.text (some nonce) body = some headers ∧
        getHeader httpd headers (ascii "X-Bridge-Auth") 80 = some auth ∧
        getHeader httpd headers (ascii "X-Bridge-Pre") 80 = some pre ∧
        checkHttpPre H b' method path body.length.toUInt32 (some pre) = true ∧
        checkHttp H b' method path (H.sha256 body) (some auth) = true) ∧
    ∀ datagram, b.claimed = true → name.text ≠ [] → 9 ∉ name.text →
      announceDatagram H b mac port name ip = some datagram →
      ∃ ann, Discovery.parse datagram = .ok (.announce ann) ∧
        ann.bdaddr = bdaddrText mac ∧ ann.port = port ∧ ann.name = name.text ∧
        Zig.verifyAnnounce H b.psk ann.bdaddr ann.port ann.name ip ann.sig = true := by
  have hannounce := announceInput_eq bdaddr name ip hport
  have hhttp := httpInput_eq H b method path body
  have hpre := preInput_eq b method path hbody
  refine ⟨⟨clientInput_eq sn cn, boardInput_eq cn sn, hannounce, hhttp, hpre⟩, ⟨?_, ?_, ?_, ?_, ?_⟩, ?_, ?_⟩
  · rw [clientProof, clientInput_eq]
    rfl
  · rw [boardProof, boardInput_eq]
    rfl
  · intro hclaimed
    rw [announceSig, if_neg (by simp [hclaimed]), hannounce]
    rfl
  · rw [hmacParts, hhttp]
    rfl
  · rw [hmacParts, hpre]
    rfl
  · intro b' hclaimed hnonce
    exact authHeaders_accepted H hfinds b b' method path hclaimed hnonce hbody
  · intro datagram hclaimed hne htab h
    exact announceDatagram_accepted H b mac name ip hclaimed hport hne htab h

/-- The announce vector of the tests in `auth.zig`. -/
def vectorHashes : Hashes where
  hmac key msg :=
    if key = Block.fill 32 66 ∧ msg = ascii "a0:a3:b3:2f:61:1e\t4444\tesp-hci-bridge\t172.16.135.242" then
      ⟨[243, 28, 72, 39, 237, 77, 147, 124, 35, 132, 232, 224, 139, 153, 207, 82,
        168, 0, 154, 178, 173, 48, 138, 208, 115, 35, 247, 57, 45, 171, 114, 152], rfl⟩
    else Block.fill 32 0
  sha256 body :=
    if body = [] then
      (Auth.hexToBlock 32
        (ascii "e3b0c44298fc1c149afbf4c8996fb92427ae41e4649b934ca495991b7852b855")).getD (Block.fill 32 0)
    else Block.fill 32 0

theorem trim_hexlify {bs strip : Bytes} (hstrip : ∀ n < 16, Auth.hexDigit n ∉ strip) :
    trim strip (hexlify bs) = hexlify bs := by
  apply trim_eq_self
  · intro c hc
    obtain ⟨n, hn, rfl⟩ := Auth.mem_hexlify (List.mem_of_head? hc)
    exact hstrip n hn
  · intro c hc
    obtain ⟨n, hn, rfl⟩ := Auth.mem_hexlify (List.mem_of_getLast? hc)
    exact hstrip n hn

def headerValue (text name : Bytes) : Option Bytes :=
  (text.splitOn 10).findSome? fun line =>
    match cut 58 (trim [13] line) with
    | none => none
    | some (n, v) => if eqlIgnoreCase n name then some (trim [32, 9] v) else none

/-- The server on header lines without continuations. -/
def vectorHttpd : Httpd where
  hdrValueLen req name := ((headerValue req name).getD []).length
  hdrValueStr req name outlen :=
    match headerValue req name with
    | none => none
    | some v => if h : 0 ∉ v ∧ v.length < outlen then some ⟨v, h.1⟩ else none

theorem trim_line {label : Bytes} (bs : Bytes) (hhead : label.head? ≠ some 13) (hend : label.getLast? = some 32) :
    trim [13] (label ++ hexlify bs) = label ++ hexlify bs := by
  have hne : label ≠ [] := by
    rintro rfl
    cases hend
  apply trim_eq_self
  · intro c hc hmem
    rw [List.head?_append_of_ne_nil _ hne] at hc
    rw [List.mem_singleton] at hmem
    subst hmem
    exact hhead hc
  · intro c hc hmem
    rw [List.mem_singleton] at hmem
    subst hmem
    rw [List.getLast?_append] at hc
    cases hb : (hexlify bs).getLast? with
    | none =>
      rw [hb, hend] at hc
      cases hc
    | some d =>
      rw [hb] at hc
      cases hc
      exact Auth.notMem_hexlify (by decide) (List.mem_of_getLast? hb)

theorem split_proofs (auth pre : Bytes) :
    (ascii "X-Bridge-Auth: " ++ hexlify auth ++ ascii "\r\nX-Bridge-Pre: " ++ hexlify pre).splitOn 10 =
      [ascii "X-Bridge-Auth: " ++ hexlify auth ++ [13], ascii "X-Bridge-Pre: " ++ hexlify pre] := by
  have hno : ∀ bs, 10 ∉ hexlify bs := fun bs => Auth.notMem_hexlify (by decide)
  have htext : ascii "X-Bridge-Auth: " ++ hexlify auth ++ ascii "\r\nX-Bridge-Pre: " ++ hexlify pre =
      (ascii "X-Bridge-Auth: " ++ hexlify auth ++ [13]) ++ 10 :: (ascii "X-Bridge-Pre: " ++ hexlify pre) := by
    simp [ascii]
  have hfirst : 10 ∉ ascii "X-Bridge-Auth: " ++ hexlify auth ++ [13] := by
    simp only [List.mem_append, not_or]
    exact ⟨⟨by decide, hno auth⟩, by decide⟩
  have hsecond : 10 ∉ ascii "X-Bridge-Pre: " ++ hexlify pre := by
    simp only [List.mem_append, not_or]
    exact ⟨by decide, hno pre⟩
  rw [htext, List.splitOn_append_cons_self_of_not_mem hfirst, List.splitOn_eq_singleton hsecond]

theorem headerValue_proofs (auth pre : Bytes) :
    headerValue (ascii "X-Bridge-Auth: " ++ hexlify auth ++ ascii "\r\nX-Bridge-Pre: " ++ hexlify pre)
        (ascii "X-Bridge-Auth") = some (hexlify auth) ∧
      headerValue (ascii "X-Bridge-Auth: " ++ hexlify auth ++ ascii "\r\nX-Bridge-Pre: " ++ hexlify pre)
        (ascii "X-Bridge-Pre") = some (hexlify pre) := by
  have hcut1 : cut 58 (trim [13] (ascii "X-Bridge-Auth: " ++ hexlify auth ++ [13])) =
      some (ascii "X-Bridge-Auth", 32 :: hexlify auth) := by
    rw [trim_concat (by simp), trim_line auth (by decide) (by decide)]
    exact cut_eq_some.mpr ⟨rfl, by decide⟩
  have hcut2 : cut 58 (trim [13] (ascii "X-Bridge-Pre: " ++ hexlify pre)) =
      some (ascii "X-Bridge-Pre", 32 :: hexlify pre) := by
    rw [trim_line pre (by decide) (by decide)]
    exact cut_eq_some.mpr ⟨rfl, by decide⟩
  have hval : ∀ bs, trim [32, 9] (32 :: hexlify bs) = hexlify bs := by
    intro bs
    rw [trim_cons (by decide), trim_hexlify (by decide)]
  have hne : eqlIgnoreCase (ascii "X-Bridge-Auth") (ascii "X-Bridge-Pre") = false := by decide
  simp only [headerValue, split_proofs, List.findSome?_cons, hcut1, hcut2, eqlIgnoreCase_self, if_true, hval, hne,
    Bool.false_eq_true, if_false, and_self]

theorem vectorHttpd_finds_value {req name v : Bytes} (h : headerValue req name = some v) (hnul : 0 ∉ v) :
    vectorHttpd.Finds req name v := by
  refine ⟨by simp only [vectorHttpd, h, Option.getD_some], fun outlen hlen => ⟨⟨v, hnul⟩, ?_, rfl⟩⟩
  simp only [vectorHttpd, h]
  rw [dif_pos ⟨hnul, hlen⟩]

theorem vectorHttpd_finds : vectorHttpd.FindsProofs := by
  rintro auth pre _ rfl
  obtain ⟨hauth, hpre⟩ := headerValue_proofs auth.bytes pre.bytes
  exact ⟨vectorHttpd_finds_value hauth (notMem_hexlify_nul _), vectorHttpd_finds_value hpre (notMem_hexlify_nul _)⟩

def vectorBoard : Board := ⟨Block.fill 32 66, true, Block.fill 16 0, 0⟩

theorem vector_accepted :
    (∃ nonce headers auth pre,
      hexToNonce (nonceHex vectorBoard 41) = some nonce ∧
      Zig.authHeaders vectorHashes vectorBoard.psk (ascii "POST") (ascii "/unclaim") (some nonce) [] = some headers ∧
      getHeader vectorHttpd headers (ascii "X-Bridge-Auth") 80 = some auth ∧
      getHeader vectorHttpd headers (ascii "X-Bridge-Pre") 80 = some pre ∧
      checkHttpPre vectorHashes vectorBoard ⟨ascii "POST", by decide⟩ ⟨ascii "/unclaim", by decide⟩ 0 (some pre) =
        true ∧
      checkHttp vectorHashes vectorBoard ⟨ascii "POST", by decide⟩ ⟨ascii "/unclaim", by decide⟩
        (vectorHashes.sha256 []) (some auth) = true) ∧
    ∃ ann, Discovery.parse (ascii
        "ESPHCI1\tANNOUNCE\ta0:a3:b3:2f:61:1e\t4444\tesp-hci-bridge\tf31c4827ed4d937c2384e8e08b99cf52\n") =
        .ok (.announce ann) ∧
      ann.bdaddr = bdaddrText ⟨[160, 163, 179, 47, 97, 30], rfl⟩ ∧ ann.port = 4444 ∧
      ann.name = ascii "esp-hci-bridge" ∧
      Zig.verifyAnnounce vectorHashes vectorBoard.psk ann.bdaddr ann.port ann.name
        ⟨[172, 16, 135, 242], rfl⟩ ann.sig = true := by
  obtain ⟨-, -, hheaders, hannounce⟩ := key_protocol_agrees vectorHashes vectorHttpd vectorHttpd_finds vectorBoard
    (Block.fill 32 0) (Block.fill 32 0) ⟨[], by decide⟩ ⟨ascii "esp-hci-bridge", by decide⟩ ⟨ascii "POST", by decide⟩
    ⟨ascii "/unclaim", by decide⟩ 4444 ⟨[172, 16, 135, 242], rfl⟩ ⟨[160, 163, 179, 47, 97, 30], rfl⟩ []
    (by norm_num) (Nat.zero_le _)
  exact ⟨hheaders vectorBoard rfl rfl, hannounce _ rfl (by decide) (by decide) (by decide +kernel)⟩

end HciBridge.KeyProtocol
