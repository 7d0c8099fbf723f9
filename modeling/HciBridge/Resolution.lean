import HciBridge.Scalar

/-!
What `resolve` of `host/settings.zig` is for: a grammar of the arguments, and for each field the
values that the configuration, the environment and the arguments give it, in that order.
-/

namespace HciBridge.Config

open Text
open Auth (Bytes Psk ascii hexlify hexToPsk_iff)

/-- `Takes args once layers rest`: the arguments start with one option, which gives `layers`. -/
inductive Takes : List Bytes → Bool → List Layer → List Bytes → Prop
  | once (rest : List Bytes) : Takes (ascii "--once" :: rest) true [] rest
  | host (v : Bytes) (rest : List Bytes) :
      Takes (ascii "--host" :: v :: rest) false [⟨.clients, v⟩, ⟨.discovery, ascii "off"⟩] rest
  | noDiscovery (rest : List Bytes) :
      Takes (ascii "--no-discovery" :: rest) false [⟨.discovery, ascii "off"⟩] rest
  | bare (rest : List Bytes) (h : ∀ v ∈ rest.head?, ∀ b, ¬BoolText v b) :
      Takes (ascii "--discovery" :: rest) false [⟨.discovery, ascii "on"⟩] rest
  | switch (v : Bytes) (rest : List Bytes) (b : Bool) (h : BoolText v b) :
      Takes (ascii "--discovery" :: v :: rest) false [⟨.discovery, v⟩] rest
  | valued (d : Desc) (v : Bytes) (rest : List Bytes) (hd : d ∈ descs) (hk : d.kind ≠ .boolean) :
      Takes (d.flag :: v :: rest) false [⟨d.field, v⟩] rest

inductive Accepts : List Bytes → Bool → List Layer → Prop
  | nil : Accepts [] false []
  | step {args rest : List Bytes} {o once : Bool} {ls layers : List Layer} (ht : Takes args o ls rest)
      (h : Accepts rest once layers) : Accepts args (o || once) (ls ++ layers)

def options : List Bytes := [ascii "--once", ascii "--host", ascii "--no-discovery"] ++ descs.map Desc.flag

def NeedsValue (arg : Bytes) : Prop := arg = ascii "--host" ∨ ∃ d ∈ descs, d.kind ≠ .boolean ∧ d.flag = arg

inductive Stuck : List Bytes → Error → Prop
  | noOption {arg : Bytes} (rest : List Bytes) (h : arg ∉ options) : Stuck (arg :: rest) .badArgument
  | noValue {arg : Bytes} (h : NeedsValue arg) : Stuck [arg] .missingValue

inductive Rejects : List Bytes → Error → Prop
  | stuck {args : List Bytes} {e : Error} (h : Stuck args e) : Rejects args e
  | step {args rest : List Bytes} {o : Bool} {ls : List Layer} {e : Error} (ht : Takes args o ls rest)
      (h : Rejects rest e) : Rejects args e

def Field.desc (f : Field) : Desc := (descs.find? fun d => d.field = f).get (by cases f <;> rfl)

def valuesOf (f : Field) (ls : List Layer) : List Bytes := (ls.filter fun l => l.field = f).map Layer.value

def confValues (pairs : List Pair) (f : Field) : List Bytes :=
  (pairs.filter fun p => p.key = f.desc.key).map Pair.value

def envValues (get : Bytes → Option Bytes) (f : Field) : List Bytes :=
  match get f.desc.env with
  | none => []
  | some v => if f.desc.kind = .list then ((v.splitOn 44).map (trim [32])).filter fun t => t ≠ [] else [v]

def LastValid {α : Type} (Means : Bytes → α → Prop) (default : α) (vs : List Bytes) (x : α) : Prop :=
  (∃ before v after, vs = before ++ v :: after ∧ Means v x ∧ ∀ v' ∈ after, ∀ y, ¬Means v' y) ∨
    x = default ∧ ∀ v ∈ vs, ∀ y, ¬Means v y

structure Specified (values : Field → List Bytes) (once : Bool) (s : Settings) : Prop where
  discovery : LastValid BoolText true (values .discovery) s.discovery
  bind : LastValid Eq (ascii "0.0.0.0") (values .bind) s.bind
  subnet : LastValid Eq [] (values .subnet) s.subnet
  discoveryPort : LastValid (Numeral 65535) 4445 (values .discoveryPort) s.discoveryPort
  port : LastValid (Numeral 65535) 4444 (values .port) s.port
  vhci : LastValid Eq (ascii "/dev/vhci") (values .vhci) s.vhci
  reconnectMs : LastValid (Numeral 4294967295) 1000 (values .reconnectMs) s.reconnectMs
  clients : s.clients = values .clients
  allow : s.allow = values .allow
  deny : s.deny = values .deny
  psk : s.psk = values .psk
  once : s.once = once

section Arguments

theorem flag_facts : ∀ d ∈ descs, ascii "--" <+: d.flag ∧ descByFlag d.flag = some d ∧ d.flag ≠ ascii "--once" ∧
    d.flag ≠ ascii "--host" ∧ d.flag ≠ ascii "--no-discovery" := by decide

theorem boolean_facts : ∀ d ∈ descs, d.kind = .boolean → d.flag = ascii "--discovery" ∧ d.field = .discovery := by
  decide

theorem flagLayers_valued {d : Desc} (hd : d ∈ descs) (hk : d.kind ≠ .boolean) (rest : List Bytes) :
    flagLayers (d.flag :: rest) =
      match rest with
      | [] => .error .missingValue
      | v :: rest => (flagLayers rest).map fun r => (r.1, ⟨d.field, v⟩ :: r.2) := by
  obtain ⟨hdash, hflag, honce, hhost, hno⟩ := flag_facts d hd
  rw [flagLayers.eq_def]
  dsimp only
  rw [if_neg honce, if_neg hhost, if_neg hno, if_pos hdash, hflag]
  exact if_neg hk

theorem flagLayers_discovery (rest : List Bytes) :
    flagLayers (ascii "--discovery" :: rest) =
      match rest with
      | [] => .ok (false, [⟨.discovery, ascii "on"⟩])
      | v :: after =>
        if (parseBool v).isSome then (flagLayers after).map fun r => (r.1, ⟨.discovery, v⟩ :: r.2)
        else (flagLayers (v :: after)).map fun r => (r.1, ⟨.discovery, ascii "on"⟩ :: r.2) := by
  have hflag : descByFlag (ascii "--discovery") =
      some ⟨.discovery, ascii "--discovery", ascii "HCIBRIDGE_DISCOVERY", ascii "discovery", .boolean⟩ := by decide
  rw [flagLayers.eq_def]
  dsimp only
  rw [if_neg (by decide), if_neg (by decide), if_neg (by decide), if_pos (by decide), hflag]
  exact if_pos rfl

theorem takes_spec {args rest : List Bytes} {o : Bool} {ls : List Layer} (h : Takes args o ls rest) :
    flagLayers args = (flagLayers rest).map fun r => (o || r.1, ls ++ r.2) := by
  cases h with
  | once =>
    rw [flagLayers.eq_def]
    dsimp only
    rw [if_pos rfl]
    rfl
  | host v =>
    rw [flagLayers.eq_def]
    dsimp only
    rw [if_neg (by decide), if_pos rfl]
    rfl
  | noDiscovery =>
    rw [flagLayers.eq_def]
    dsimp only
    rw [if_neg (by decide), if_neg (by decide), if_pos rfl]
    rfl
  | bare rest h =>
    rw [flagLayers_discovery]
    cases rest with
    | nil => rfl
    | cons v after => simp [parseBool_eq_none.mpr (h v rfl)]
  | switch v rest b h =>
    rw [flagLayers_discovery]
    simp [parseBool_iff.mpr h]
  | valued d v rest hd hk => exact flagLayers_valued hd hk (v :: rest)

theorem stuck_spec {args : List Bytes} {e : Error} (h : Stuck args e) : flagLayers args = .error e := by
  cases h with
  | @noOption arg rest h =>
    simp only [options, List.mem_append, List.mem_cons, List.not_mem_nil, or_false, not_or] at h
    obtain ⟨⟨honce, hhost, hno⟩, hdescs⟩ := h
    have hflag : descByFlag arg = none := by
      rw [descByFlag, List.find?_eq_none]
      intro d hd heq
      exact hdescs (List.mem_map.mpr ⟨d, hd, by simpa using heq⟩)
    rw [flagLayers.eq_def]
    dsimp only
    rw [if_neg honce, if_neg hhost, if_neg hno, hflag]
    split <;> rfl
  | noValue h =>
    rcases h with rfl | ⟨d, hd, hk, rfl⟩
    · rfl
    · exact flagLayers_valued hd hk []

theorem args_cases (args : List Bytes) :
    args = [] ∨ (∃ o ls rest, Takes args o ls rest ∧ rest.length < args.length) ∨ ∃ e, Stuck args e := by
  cases args with
  | nil => exact .inl rfl
  | cons arg rest =>
    right
    by_cases hmem : arg ∈ options
    · simp only [options, List.mem_append, List.mem_cons, List.not_mem_nil, or_false, List.mem_map] at hmem
      rcases hmem with (rfl | rfl | rfl) | ⟨d, hd, rfl⟩
      · exact .inl ⟨_, _, _, .once rest, by simp⟩
      · cases rest with
        | nil => exact .inr ⟨_, .noValue (.inl rfl)⟩
        | cons v rest => exact .inl ⟨_, _, _, .host v rest, by simp⟩
      · exact .inl ⟨_, _, _, .noDiscovery rest, by simp⟩
      · by_cases hk : d.kind = .boolean
        · rw [(boolean_facts d hd hk).1]
          by_cases hbare : ∀ v ∈ rest.head?, ∀ b, ¬BoolText v b
          · exact .inl ⟨_, _, _, .bare rest hbare, by simp⟩
          · cases rest with
            | nil => simp at hbare
            | cons v rest =>
              simp only [List.head?_cons, Option.mem_def, Option.some.injEq, forall_eq', not_forall, not_not] at hbare
              obtain ⟨b, hv⟩ := hbare
              exact .inl ⟨_, _, _, .switch v rest b hv, by simp⟩
        · cases rest with
          | nil => exact .inr ⟨_, .noValue (.inr ⟨d, hd, hk, rfl⟩)⟩
          | cons v rest => exact .inl ⟨_, _, _, .valued d v rest hd hk, by simp⟩
    · exact .inr ⟨_, .noOption rest hmem⟩

theorem flagLayers_ok_iff (args : List Bytes) (once : Bool) (layers : List Layer) :
    flagLayers args = .ok (once, layers) ↔ Accepts args once layers := by
  constructor
  · intro h
    induction hn : args.length using Nat.strong_induction_on generalizing args once layers with
    | _ n ih =>
      rcases args_cases args with rfl | ⟨o, ls, rest, ht, hlt⟩ | ⟨e, hs⟩
      · cases h
        exact .nil
      · rw [takes_spec ht] at h
        cases hrest : flagLayers rest with
        | error e =>
          rw [hrest] at h
          cases h
        | ok r =>
          rw [hrest] at h
          cases h
          exact .step ht (ih rest.length (hn ▸ hlt) rest _ _ hrest rfl)
      · rw [stuck_spec hs] at h
        cases h
  · intro h
    induction h with
    | nil => rfl
    | step ht _ ih =>
      rw [takes_spec ht, ih]
      rfl

theorem flagLayers_error_iff (args : List Bytes) (e : Error) : flagLayers args = .error e ↔ Rejects args e := by
  constructor
  · intro h
    induction hn : args.length using Nat.strong_induction_on generalizing args with
    | _ n ih =>
      rcases args_cases args with rfl | ⟨o, ls, rest, ht, hlt⟩ | ⟨e', hs⟩
      · cases h
      · rw [takes_spec ht] at h
        cases hrest : flagLayers rest with
        | error e' =>
          rw [hrest] at h
          cases h
          exact .step ht (ih rest.length (hn ▸ hlt) rest hrest rfl)
        | ok r =>
          rw [hrest] at h
          cases h
      · rw [stuck_spec hs] at h
        cases h
        exact .stuck hs
  · intro h
    induction h with
    | stuck hs => exact stuck_spec hs
    | step ht _ ih =>
      rw [takes_spec ht, ih]
      rfl

section Append

variable {args more rest : List Bytes} {o o' : Bool} {ls ls' : List Layer}

theorem Takes.append (h : Takes args o ls rest) (hmore : ∀ v ∈ more.head?, ∀ b, ¬BoolText v b) :
    Takes (args ++ more) o ls (rest ++ more) := by
  cases h with
  | once => exact .once _
  | host v => exact .host v _
  | noDiscovery => exact .noDiscovery _
  | bare rest h =>
    refine .bare _ ?_
    cases rest with
    | nil => exact hmore
    | cons v rest => exact h
  | switch v rest b h => exact .switch v _ b h
  | valued d v rest hd hk => exact .valued d v _ hd hk

theorem Accepts.append (h : Accepts args o ls) (hmore : ∀ v ∈ more.head?, ∀ b, ¬BoolText v b)
    (h' : Accepts more o' ls') : Accepts (args ++ more) (o || o') (ls ++ ls') := by
  induction h with
  | nil => exact h'
  | step ht _ ih =>
    rw [Bool.or_assoc, List.append_assoc]
    exact .step (ht.append hmore) ih

theorem Accepts.unique (h : Accepts args o ls) (h' : Accepts args o' ls') : o = o' ∧ ls = ls' := by
  rw [← flagLayers_ok_iff] at h h'
  rw [h, Except.ok.injEq, Prod.mk.injEq] at h'
  exact h'

end Append

end Arguments

section Values

@[simp] theorem valuesOf_append (f : Field) (ls ms : List Layer) :
    valuesOf f (ls ++ ms) = valuesOf f ls ++ valuesOf f ms := by
  simp only [valuesOf, List.filter_append, List.map_append]

theorem desc_field : ∀ d ∈ descs, d.field.desc = d := by decide

theorem field_desc (f : Field) : f.desc ∈ descs ∧ f.desc.field = f ∧ descByKey f.desc.key = some f.desc := by
  cases f <;> decide

theorem filter_descs (f : Field) : descs.filter (fun d => d.field = f) = [f.desc] := by
  cases f <;> decide

theorem descByKey_field_iff (key : Bytes) (f : Field) :
    (descByKey key).map Desc.field = some f ↔ key = f.desc.key := by
  constructor
  · intro h
    obtain ⟨d, hd, rfl⟩ := Option.map_eq_some_iff.mp h
    have hmem := List.mem_of_find?_eq_some hd
    have hkey := List.find?_some hd
    rw [desc_field d hmem]
    exact (of_decide_eq_true hkey).symm
  · rintro rfl
    rw [(field_desc f).2.2, Option.map_some, (field_desc f).2.1]

theorem valuesOf_confLayers (pairs : List Pair) (f : Field) : valuesOf f (confLayers pairs) = confValues pairs f := by
  induction pairs with
  | nil => rfl
  | cons p pairs ih =>
    have hiff := descByKey_field_iff p.key f
    have hcons : valuesOf f (confLayers (p :: pairs)) =
        valuesOf f (confLayers [p]) ++ valuesOf f (confLayers pairs) := by
      rw [← valuesOf_append, confLayers, confLayers, confLayers, ← List.filterMap_append, List.singleton_append]
    rw [hcons, ih]
    cases hd : descByKey p.key with
    | none =>
      have hne : p.key ≠ f.desc.key := by
        intro heq
        rw [hd] at hiff
        cases hiff.mpr heq
      simp [confLayers, valuesOf, confValues, hd, hne]
    | some d =>
      rw [hd, Option.map_some, Option.some.injEq] at hiff
      have hone : confLayers [p] = [⟨d.field, p.value⟩] := by simp [confLayers, hd]
      rw [hone]
      by_cases hkey : p.key = f.desc.key
      · simp [valuesOf, confValues, hkey, hiff.mpr hkey]
      · have hne : d.field ≠ f := fun heq => hkey (hiff.mp heq)
        simp [valuesOf, confValues, hkey, hne]

def layersOf (get : Bytes → Option Bytes) (d : Desc) : List Layer :=
  match get d.env with
  | none => []
  | some v => if d.kind = .list then (listItems v).map fun t => ⟨d.field, t⟩ else [⟨d.field, v⟩]

theorem valuesOf_layersOf (get : Bytes → Option Bytes) (d : Desc) (f : Field) :
    valuesOf f (layersOf get d) = if d.field = f then (layersOf get d).map Layer.value else [] := by
  have hfield : ∀ l ∈ layersOf get d, l.field = d.field := by
    intro l hl
    unfold layersOf at hl
    split at hl
    · cases hl
    · split at hl
      · obtain ⟨t, -, rfl⟩ := List.mem_map.mp hl
        rfl
      · rw [List.mem_singleton.mp hl]
  unfold valuesOf
  split
  case isTrue hf =>
    rw [List.filter_eq_self.mpr]
    intro l hl
    simp [hfield l hl, hf]
  case isFalse hf =>
    rw [List.filter_eq_nil_iff.mpr, List.map_nil]
    intro l hl
    simp [hfield l hl, hf]

theorem valuesOf_envLayers (get : Bytes → Option Bytes) (f : Field) : valuesOf f (envLayers get) = envValues get f := by
  have hflat (ds : List Desc) : valuesOf f (ds.flatMap (layersOf get)) =
      (ds.filter fun d => d.field = f).flatMap fun d => (layersOf get d).map Layer.value := by
    induction ds with
    | nil => rfl
    | cons d ds ih =>
      rw [List.flatMap_cons, valuesOf_append, ih, valuesOf_layersOf]
      by_cases hf : d.field = f <;> simp [hf]
  change valuesOf f (descs.flatMap (layersOf get)) = _
  rw [hflat, filter_descs, List.flatMap_singleton]
  unfold layersOf envValues
  cases get f.desc.env with
  | none => rfl
  | some v =>
    by_cases hk : f.desc.kind = .list
    · simp [hk, listItems, Function.comp_def]
    · simp [hk]

theorem lastValid_nil {α : Type} (Means : Bytes → α → Prop) (default : α) : LastValid Means default [] default :=
  .inr ⟨rfl, nofun⟩

theorem lastValid_cons {α : Type} {Means : Bytes → α → Prop} {parse : Bytes → Option α}
    (hparse : ∀ v x, parse v = some x ↔ Means v x) {default x : α} {v : Bytes} {vs : List Bytes}
    (h : LastValid Means ((parse v).getD default) vs x) : LastValid Means default (v :: vs) x := by
  rcases h with ⟨before, w, after, rfl, hw, hafter⟩ | ⟨rfl, hnone⟩
  · exact .inl ⟨v :: before, w, after, rfl, hw, hafter⟩
  · cases hv : parse v with
    | none =>
      refine .inr ⟨rfl, ?_⟩
      rw [List.forall_mem_cons]
      refine ⟨fun y hy => ?_, hnone⟩
      rw [← hparse, hv] at hy
      cases hy
    | some x => exact .inl ⟨[], v, vs, rfl, (hparse v x).mp hv, hnone⟩

theorem LastValid.concat {α : Type} {Means : Bytes → α → Prop} {default x : α} {vs : List Bytes} {v : Bytes}
    (h : LastValid Means default (vs ++ [v]) x) : Means v x ∨ (∀ y, ¬Means v y) ∧ LastValid Means default vs x := by
  rcases h with ⟨before, w, after, h, hw, hafter⟩ | ⟨hx, hnone⟩
  · cases after using List.reverseRecOn with
    | nil =>
      obtain ⟨-, rfl⟩ := List.append_singleton_inj.mp h
      exact .inl hw
    | append_singleton after w' =>
      rw [← List.cons_append, ← List.append_assoc] at h
      obtain ⟨rfl, rfl⟩ := List.append_singleton_inj.mp h
      rw [List.forall_mem_append, List.forall_mem_singleton] at hafter
      exact .inr ⟨hafter.2, .inl ⟨before, w, after, rfl, hw, hafter.1⟩⟩
  · rw [List.forall_mem_append, List.forall_mem_singleton] at hnone
    exact .inr ⟨hnone.2, .inr ⟨hx, hnone.1⟩⟩

theorem LastValid.unique {α : Type} {Means : Bytes → α → Prop} (hfun : ∀ v x y, Means v x → Means v y → x = y)
    {default x y : α} {vs : List Bytes} (hx : LastValid Means default vs x) (hy : LastValid Means default vs y) :
    x = y := by
  induction vs using List.reverseRecOn with
  | nil =>
    have hdefault {z : α} (hz : LastValid Means default [] z) : z = default := by
      rcases hz with ⟨before, w, after, h, -⟩ | ⟨h, -⟩
      · simp at h
      · exact h
    rw [hdefault hx, hdefault hy]
  | append_singleton vs v ih =>
    rcases hx.concat with hvx | ⟨hnone, hx⟩
    · rcases hy.concat with hvy | ⟨hnone, -⟩
      · exact hfun v x y hvx hvy
      · exact absurd hvx (hnone x)
    · rcases hy.concat with hvy | ⟨-, hy⟩
      · exact absurd hvy (hnone y)
      · exact ih hx hy

theorem boolText_unique {v : Bytes} {x y : Bool} (hx : BoolText v x) (hy : BoolText v y) : x = y := by
  rw [← parseBool_iff] at hx hy
  exact Option.some.inj (hx.symm.trans hy)

theorem Specified.unique {values : Field → List Bytes} {once : Bool} {s t : Settings} (hs : Specified values once s)
    (ht : Specified values once t) : s = t := by
  have hbool (v : Bytes) (x y : Bool) (hx : BoolText v x) (hy : BoolText v y) : x = y := boolText_unique hx hy
  have hnumber (max : ℕ) (v : Bytes) (x y : ℕ) (hx : Numeral max v x) (hy : Numeral max v y) : x = y := by
    rw [← parseInt_iff] at hx hy
    exact Option.some.inj (hx.symm.trans hy)
  have htext (v x y : Bytes) (hx : v = x) (hy : v = y) : x = y := hx.symm.trans hy
  calc s = ⟨s.discovery, s.bind, s.subnet, s.discoveryPort, s.port, s.vhci, s.reconnectMs, s.clients, s.allow, s.deny,
        s.psk, s.once⟩ := rfl
    _ = ⟨t.discovery, t.bind, t.subnet, t.discoveryPort, t.port, t.vhci, t.reconnectMs, t.clients, t.allow, t.deny,
        t.psk, t.once⟩ := by
      rw [hs.discovery.unique hbool ht.discovery, hs.bind.unique htext ht.bind, hs.subnet.unique htext ht.subnet,
        hs.discoveryPort.unique (hnumber _) ht.discoveryPort, hs.port.unique (hnumber _) ht.port,
        hs.vhci.unique htext ht.vhci, hs.reconnectMs.unique (hnumber _) ht.reconnectMs, hs.clients, ht.clients,
        hs.allow, ht.allow, hs.deny, ht.deny, hs.psk, ht.psk, hs.once, ht.once]
    _ = t := rfl

theorem foldl_scalar {α : Type} (get : Settings → α) (f : Field) {Means : Bytes → α → Prop}
    {parse : Bytes → Option α} (hparse : ∀ v x, parse v = some x ↔ Means v x)
    (happly : ∀ s l, get (s.apply l) = if l.field = f then (parse l.value).getD (get s) else get s)
    (ls : List Layer) (s : Settings) : LastValid Means (get s) (valuesOf f ls) (get (ls.foldl Settings.apply s)) := by
  induction ls generalizing s with
  | nil => exact lastValid_nil _ _
  | cons l ls ih =>
    have ih := ih (s.apply l)
    rw [happly] at ih
    rw [List.foldl_cons]
    by_cases hf : l.field = f
    · have hcons : valuesOf f (l :: ls) = l.value :: valuesOf f ls := by simp [valuesOf, hf]
      rw [if_pos hf] at ih
      rw [hcons]
      exact lastValid_cons hparse ih
    · have hcons : valuesOf f (l :: ls) = valuesOf f ls := by simp [valuesOf, hf]
      rw [if_neg hf] at ih
      rw [hcons]
      exact ih

theorem foldl_list (get : Settings → List Bytes) (f : Field)
    (happly : ∀ s l, get (s.apply l) = if l.field = f then get s ++ [l.value] else get s)
    (ls : List Layer) (s : Settings) : get (ls.foldl Settings.apply s) = get s ++ valuesOf f ls := by
  induction ls generalizing s with
  | nil => simp [valuesOf]
  | cons l ls ih =>
    rw [List.foldl_cons, ih, happly]
    by_cases hf : l.field = f <;> simp [valuesOf, hf]

theorem foldl_once (ls : List Layer) (s : Settings) : (ls.foldl Settings.apply s).once = s.once := by
  induction ls generalizing s with
  | nil => rfl
  | cons l ls ih =>
    rw [List.foldl_cons, ih]
    obtain ⟨field, value⟩ := l
    cases field <;> rfl

theorem specified_foldl (ls : List Layer) (once : Bool) :
    Specified (fun f => valuesOf f ls) once (ls.foldl Settings.apply { Settings.default with once := once }) := by
  have htext (v x : Bytes) : some v = some x ↔ v = x := by rw [Option.some.injEq]
  have hnumber (max : ℕ) (v : Bytes) (n : ℕ) : parseInt max v = some n ↔ Numeral max v n := parseInt_iff
  constructor
  case discovery =>
    exact foldl_scalar Settings.discovery .discovery (fun _ _ => parseBool_iff)
      (by rintro s ⟨field, value⟩; cases field <;> rfl) ls _
  case bind =>
    exact foldl_scalar Settings.bind .bind htext (by rintro s ⟨field, value⟩; cases field <;> rfl) ls _
  case subnet =>
    exact foldl_scalar Settings.subnet .subnet htext (by rintro s ⟨field, value⟩; cases field <;> rfl) ls _
  case discoveryPort =>
    exact foldl_scalar Settings.discoveryPort .discoveryPort (hnumber _)
      (by rintro s ⟨field, value⟩; cases field <;> rfl) ls _
  case port =>
    exact foldl_scalar Settings.port .port (hnumber _) (by rintro s ⟨field, value⟩; cases field <;> rfl) ls _
  case vhci =>
    exact foldl_scalar Settings.vhci .vhci htext (by rintro s ⟨field, value⟩; cases field <;> rfl) ls _
  case reconnectMs =>
    exact foldl_scalar Settings.reconnectMs .reconnectMs (hnumber _)
      (by rintro s ⟨field, value⟩; cases field <;> rfl) ls _
  case clients => exact foldl_list Settings.clients .clients (by rintro s ⟨field, value⟩; cases field <;> rfl) ls _
  case allow => exact foldl_list Settings.allow .allow (by rintro s ⟨field, value⟩; cases field <;> rfl) ls _
  case deny => exact foldl_list Settings.deny .deny (by rintro s ⟨field, value⟩; cases field <;> rfl) ls _
  case psk => exact foldl_list Settings.psk .psk (by rintro s ⟨field, value⟩; cases field <;> rfl) ls _
  case once => exact foldl_once ls _

end Values

section

variable (pairs : List Pair) (args : List Bytes) (get : Bytes → Option Bytes)

/-- The address stands before the first `=` and the key in hex after it; blanks around either and letter case do
not count. -/
def Names (entry bdaddr : Bytes) (key : Psk) : Prop :=
  ∃ name hex, entry = name ++ 61 :: hex ∧ 61 ∉ name ∧ (trim [32] name).map lower = bdaddr.map lower ∧
    (trim [32] hex).map lower = hexlify key.bytes

def LastNamed (entries : List Bytes) (bdaddr : Bytes) : Option Psk → Prop
  | none => ∀ e ∈ entries, ∀ key, ¬Names e bdaddr key
  | some key => ∃ before e after, entries = before ++ e :: after ∧ Names e bdaddr key ∧
      ∀ e' ∈ after, ∀ key', ¬Names e' bdaddr key'

theorem entryKey_iff {entry bdaddr : Bytes} {key : Psk} :
    entryKey bdaddr entry = some key ↔ Names entry bdaddr key := by
  unfold entryKey
  constructor
  · intro h
    cases hcut : cut 61 entry with
    | none => simp [hcut] at h
    | some p =>
      obtain ⟨name, hex⟩ := p
      obtain ⟨rfl, hname⟩ := cut_eq_some.mp hcut
      simp only [hcut, Option.ite_none_right_eq_some, eqlIgnoreCase_iff, hexToPsk_iff] at h
      exact ⟨name, hex, rfl, hname, h⟩
  · rintro ⟨name, hex, rfl, hname, hmatch, hkey⟩
    simp [cut_append hname, eqlIgnoreCase_iff.mpr hmatch, hexToPsk_iff.mpr hkey]

theorem lastNamed_lookupPsk (entries : List Bytes) (bdaddr : Bytes) :
    LastNamed entries bdaddr (lookupPsk entries bdaddr) := by
  have hnone {e : Bytes} (h : entryKey bdaddr e = none) (key : Psk) : ¬Names e bdaddr key := by
    rw [← entryKey_iff, h]
    simp
  cases h : lookupPsk entries bdaddr with
  | none =>
    rw [lookupPsk, List.findSome?_eq_none_iff] at h
    intro e he
    exact hnone (h e (List.mem_reverse.mpr he))
  | some key =>
    obtain ⟨after, e, before, hsplit, he, hafter⟩ := List.findSome?_eq_some_iff.mp h
    refine ⟨before.reverse, e, after.reverse, ?_, entryKey_iff.mp he, ?_⟩
    · rw [← List.reverse_reverse entries, hsplit]
      simp
    · intro e' he'
      exact hnone (hafter e' (List.mem_reverse.mp he'))

def values (layers : List Layer) (f : Field) : List Bytes :=
  confValues pairs f ++ envValues get f ++ valuesOf f layers

theorem resolve_of_layers {once : Bool} {layers : List Layer} (h : flagLayers args = .ok (once, layers)) :
    ∃ s, resolve pairs args get = .ok s ∧ Specified (values pairs get layers) once s := by
  have hvalues : (fun f => valuesOf f (confLayers pairs ++ envLayers get ++ layers)) = values pairs get layers := by
    funext f
    rw [valuesOf_append, valuesOf_append, valuesOf_confLayers, valuesOf_envLayers]
    rfl
  refine ⟨_, by rw [resolve, h]; rfl, ?_⟩
  rw [← hvalues]
  exact specified_foldl _ once

theorem resolve_error_iff (e : Error) : resolve pairs args get = .error e ↔ Rejects args e := by
  rw [← flagLayers_error_iff]
  cases h : flagLayers args with
  | error e' =>
    rw [resolve, h]
    exact ⟨fun he => by cases he; rfl, fun he => by cases he; rfl⟩
  | ok r =>
    obtain ⟨s, hs, -⟩ := resolve_of_layers pairs args get h
    simp [hs]

theorem resolve_ok_iff (s : Settings) : resolve pairs args get = .ok s ↔
    ∃ once layers, Accepts args once layers ∧ Specified (values pairs get layers) once s := by
  simp only [← flagLayers_ok_iff]
  constructor
  · intro h
    cases hf : flagLayers args with
    | error e =>
      rw [resolve, hf] at h
      cases h
    | ok r =>
      obtain ⟨t, ht, hspec⟩ := resolve_of_layers pairs args get hf
      rw [ht] at h
      cases h
      exact ⟨r.1, r.2, rfl, hspec⟩
  · rintro ⟨once, layers, hf, hspec⟩
    obtain ⟨t, ht, hspec'⟩ := resolve_of_layers pairs args get hf
    rw [ht, hspec'.unique hspec]

theorem confLayers_unknown {before after : List Pair} {p : Pair} (h : p.key ∉ descs.map Desc.key) :
    confLayers (before ++ p :: after) = confLayers (before ++ after) := by
  have hkey : descByKey p.key = none := by
    rw [descByKey, List.find?_eq_none]
    intro d hd heq
    exact h (List.mem_map.mpr ⟨d, hd, by simpa using heq⟩)
  simp [confLayers, hkey]

theorem discovery_off {more : List Bytes} {once once' : Bool} {layers ls : List Layer} {s : Settings}
    (h : Accepts args once layers) (hmore : ∀ v ∈ more.head?, ∀ b, ¬BoolText v b)
    (htakes : Accepts more once' (ls ++ [⟨.discovery, ascii "off"⟩]))
    (hs : resolve pairs (args ++ more) get = .ok s) : s.discovery = false := by
  obtain ⟨o, all, haccepts, hspec⟩ := (resolve_ok_iff pairs (args ++ more) get s).mp hs
  obtain ⟨-, rfl⟩ := haccepts.unique (h.append hmore htakes)
  have hoff : BoolText (ascii "off") false := .inl (by decide)
  have hvalues : values pairs get (layers ++ (ls ++ [⟨.discovery, ascii "off"⟩])) .discovery =
      (confValues pairs .discovery ++ envValues get .discovery ++ valuesOf .discovery (layers ++ ls)) ++
        [ascii "off"] := by
    rw [values, ← List.append_assoc layers, valuesOf_append .discovery (layers ++ ls), ← List.append_assoc]
    rfl
  have hlast := hspec.discovery
  rw [hvalues] at hlast
  rcases hlast.concat with hmeans | ⟨hnone, -⟩
  · exact boolText_unique hmeans hoff
  · exact absurd hoff (hnone false)

theorem resolve_spec :
    (∀ e, resolve pairs args get = .error e ↔ Rejects args e) ∧
    (∀ s, resolve pairs args get = .ok s ↔
      ∃ once layers, Accepts args once layers ∧ Specified (values pairs get layers) once s) ∧
    (∀ before after p, pairs = before ++ p :: after → p.key ∉ descs.map Desc.key →
      resolve pairs args get = resolve (before ++ after) args get) ∧
    (∀ once layers s, Accepts args once layers →
      (resolve pairs (args ++ [ascii "--no-discovery"]) get = .ok s ∨
        ∃ host, resolve pairs (args ++ [ascii "--host", host]) get = .ok s) → s.discovery = false) ∧
    ∀ s bdaddr, resolve pairs args get = .ok s → LastNamed s.psk bdaddr (lookupPsk s.psk bdaddr) := by
  refine ⟨resolve_error_iff pairs args get, resolve_ok_iff pairs args get, ?_, ?_, ?_⟩
  · rintro before after p rfl h
    simp only [resolve, confLayers_unknown h]
  · rintro once layers s haccepts (hs | ⟨host, hs⟩)
    · have hword : ∀ v ∈ [ascii "--no-discovery"].head?, ∀ b, ¬BoolText v b := by
        rintro v ⟨⟩
        exact parseBool_eq_none.mp (by decide)
      have htakes : Accepts [ascii "--no-discovery"] false ([] ++ [⟨.discovery, ascii "off"⟩]) :=
        .step (.noDiscovery []) .nil
      exact discovery_off pairs args get haccepts hword htakes hs
    · have hword : ∀ v ∈ [ascii "--host", host].head?, ∀ b, ¬BoolText v b := by
        rintro v ⟨⟩
        exact parseBool_eq_none.mp (by decide)
      have htakes : Accepts [ascii "--host", host] false ([⟨.clients, host⟩] ++ [⟨.discovery, ascii "off"⟩]) :=
        .step (.host host []) .nil
      exact discovery_off pairs args get haccepts hword htakes hs
  · intro s bdaddr _
    exact lastNamed_lookupPsk s.psk bdaddr

end

section Vector

def vectorPairs : List Pair :=
  [⟨ascii "discovery", ascii "oN", []⟩, ⟨ascii "discovery", ascii "maybe", []⟩, ⟨ascii "port", ascii "1_0", []⟩,
    ⟨ascii "client", ascii "10.0.0.1", []⟩, ⟨ascii "colour", ascii "red", []⟩]

def vectorGet (name : Bytes) : Option Bytes :=
  if name = ascii "HCIBRIDGE_PORT" then some (ascii "70000")
  else if name = ascii "HCIBRIDGE_ALLOW" then some (ascii " a ,,b") else none

def vectorArgs : List Bytes := [ascii "--discovery", ascii "--once", ascii "--host", ascii "10.0.0.2"]

def vectorLayers : List Layer :=
  [⟨.discovery, ascii "on"⟩, ⟨.clients, ascii "10.0.0.2"⟩, ⟨.discovery, ascii "off"⟩]

def vectorSettings : Settings where
  discovery := false
  bind := ascii "0.0.0.0"
  subnet := []
  discoveryPort := 4445
  port := 10
  vhci := ascii "/dev/vhci"
  reconnectMs := 1000
  clients := [ascii "10.0.0.1", ascii "10.0.0.2"]
  allow := [ascii "a", ascii "b"]
  deny := []
  psk := []
  once := true

theorem resolve_spec_vector : resolve vectorPairs vectorArgs vectorGet = .ok vectorSettings := by
  have haccepts : Accepts vectorArgs true vectorLayers := by
    refine .step (.bare _ ?_) (.step (.once _) (.step (.host _ _) .nil))
    rintro v ⟨⟩
    exact parseBool_eq_none.mp (by decide)
  have hspec : Specified (values vectorPairs vectorGet vectorLayers) true vectorSettings := by
    have hnone {α : Type} {Means : Bytes → α → Prop} {default : α} {vs : List Bytes} (h : vs = []) :
        LastValid Means default vs default := h ▸ lastValid_nil Means default
    constructor
    case discovery =>
      exact .inl ⟨[ascii "oN", ascii "maybe", ascii "on"], ascii "off", [], rfl, .inl (by decide), nofun⟩
    case port =>
      refine .inl ⟨[], ascii "1_0", [ascii "70000"], rfl, ?_, ?_⟩
      · exact parseInt_iff.mp (by decide)
      · intro v hv n hn
        have hlarge : parseInt 65535 (ascii "70000") = none := by decide
        rw [List.mem_singleton.mp hv, ← parseInt_iff, hlarge] at hn
        cases hn
    case bind | subnet | discoveryPort | vhci | reconnectMs => exact hnone rfl
    case clients | allow | deny | psk | once => rfl
  exact ((resolve_spec vectorPairs vectorArgs vectorGet).2.1 vectorSettings).mpr ⟨true, vectorLayers, haccepts, hspec⟩

end Vector

end HciBridge.Config
