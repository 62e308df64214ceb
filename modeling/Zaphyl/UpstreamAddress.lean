import Zaphyl.SiteRouting
/-!
# UpstreamAddress — what an accepted upstream is good for

`validate` looks at an upstream without the blanks around it and asks for a host and a port.  The router takes the text as
it stands, so that blanks, a scheme or a path in front of the last colon reach the resolver and the upstream URI.  The
upstreams of an accepted configuration are usable exactly when none has them (`upstreams_usable_iff`).
-/
namespace Zaphyl

open Text (trim rsplitOnce parseUnsigned)

/-- The URI of an address, as the health check's and the proxy's begin. -/
def addressUri (address : Str) : Str := "http://".toList ++ address ++ ['/']

/-- **An address that can be resolved and put into a URI**: `host:port` alone, the host that of the server name. -/
structure Usable (validUri : Str → Bool) (address sni : Str) : Prop where
  hostPort : ∃ port, address = sni ++ ':' :: port ∧ ':' ∉ port ∧ (parseUnsigned 65536 port).isSome = true
  host_ne : sni ≠ []
  trimmed : trim address = address
  no_slash : '/' ∉ address
  no_scheme : ¬ "://".toList <:+: address
  uri : validUri (addressUri address) = true

/-- The router's targets can all be used, and any other upstream is refused as invalid. -/
structure UpstreamsUsable (validUri : Str → Bool) (parse : Str → Except Str Config) (input : Str) : Prop where
  accepted : ∀ c, Config.fromToml parse input = .ok c → ∀ route ∈ (buildRouter c).routes, ∀ target ∈ route.targets,
    Usable validUri target.address target.sni
  rejected : ∀ c, parse input = .ok c → (∃ r ∈ c.routes, ∃ u ∈ r.upstream, ∀ host, ¬ Usable validUri u host) →
    ∃ message, Config.fromToml parse input = .error (.invalid message)

/-! ## What the validator answers -/

def ConfigError.IsInvalid (e : ConfigError) : Prop := ∃ message, e = .invalid message

open Checks (FailsWith failsWith_ok failsWith_ensure failsWith_inOrder failsWith_each)

theorem failsWith_getD_map {α : Type} {check : α → Except ConfigError Unit} {P : ConfigError → Prop}
    (h : ∀ a, FailsWith P (check a)) (o : Option α) : FailsWith P ((o.map check).getD (.ok ())) := by
  cases o with
  | none => exact failsWith_ok
  | some a => exact h a

theorem isInvalid_routeError (index : Nat) (message : Str) : (routeError index message).IsInvalid := ⟨_, rfl⟩

theorem failsWith_validateRoute (index : Nat) (r : RouteConfig) :
    FailsWith ConfigError.IsInvalid (validateRoute index r) := by
  refine failsWith_inOrder ?_
  simp only [List.forall_mem_cons]
  refine ⟨failsWith_ensure (isInvalid_routeError _ _), failsWith_ensure (isInvalid_routeError _ _),
    failsWith_each (fun _ u => failsWith_ensure (isInvalid_routeError _ _)) 0 r.upstream,
    failsWith_ensure (isInvalid_routeError _ _), failsWith_ensure (isInvalid_routeError _ _), fun _ h => nomatch h⟩

theorem failsWith_validateAcme (a : AcmeConfig) : FailsWith ConfigError.IsInvalid (validateAcme a) := by
  refine failsWith_inOrder ?_
  simp only [List.forall_mem_cons]
  exact ⟨failsWith_ensure ⟨_, rfl⟩, failsWith_ensure ⟨_, rfl⟩, failsWith_ensure ⟨_, rfl⟩, failsWith_ensure ⟨_, rfl⟩,
    fun _ h => nomatch h⟩

theorem failsWith_validateLimits (l : LimitsConfig) : FailsWith ConfigError.IsInvalid (validateLimits l) := by
  refine failsWith_inOrder ?_
  simp only [List.forall_mem_cons]
  exact ⟨failsWith_ensure ⟨_, rfl⟩, failsWith_ensure ⟨_, rfl⟩, fun _ h => nomatch h⟩

/-- **Whatever rule is broken, the error is `Invalid`.** -/
theorem failsWith_validate (c : Config) : FailsWith ConfigError.IsInvalid c.validate := by
  refine failsWith_inOrder ?_
  simp only [List.forall_mem_cons]
  exact ⟨failsWith_ensure ⟨_, rfl⟩, failsWith_ensure ⟨_, rfl⟩, failsWith_ensure ⟨_, rfl⟩,
    failsWith_getD_map failsWith_validateAcme c.acme, failsWith_ensure ⟨_, rfl⟩, failsWith_ensure ⟨_, rfl⟩,
    failsWith_getD_map failsWith_validateLimits c.limits, failsWith_ensure ⟨_, rfl⟩, failsWith_ensure ⟨_, rfl⟩,
    failsWith_ensure ⟨_, rfl⟩, failsWith_ensure ⟨_, rfl⟩, failsWith_each failsWith_validateRoute 0 c.routes,
    fun _ h => nomatch h⟩

/-- A parsed text is accepted when its configuration is valid, and refused as invalid otherwise. -/
theorem fromToml_of_parse {parse : Str → Except Str Config} {input : Str} {c : Config} (h : parse input = .ok c) :
    (c.Valid ∧ Config.fromToml parse input = .ok c) ∨
      (¬ c.Valid ∧ ∃ message, Config.fromToml parse input = .error (.invalid message)) := by
  have hrun : Config.fromToml parse input = c.validate >>= fun _ => .ok c := by
    unfold Config.fromToml
    rw [h]
    rfl
  rw [hrun]
  cases hvalidate : c.validate with
  | ok _ => exact .inl ⟨(validate_eq_ok_iff c).1 hvalidate, rfl⟩
  | error e =>
    obtain ⟨message, rfl⟩ := failsWith_validate c e hvalidate
    refine .inr ⟨fun hvalid => ?_, message, rfl⟩
    rw [(validate_eq_ok_iff c).2 hvalid] at hvalidate
    cases hvalidate

/-! ## The targets of a configuration -/

theorem targets_buildRoute (route : RouteConfig) (index : Nat) :
    (buildRoute route index).targets = route.upstream.map (buildTarget route) := by
  unfold buildRoute
  cases route.root <;> rfl

/-- **The router's targets are the configured upstreams.** -/
theorem forall_targets_iff (c : Config) (P : Str → Str → Prop) :
    (∀ route ∈ (buildRouter c).routes, ∀ target ∈ route.targets, P target.address target.sni) ↔
      ∀ r ∈ c.routes, ∀ u ∈ r.upstream, P u (((rsplitOnce ':' u).map Prod.fst).getD []) := by
  constructor
  · intro h r hr u hu
    obtain ⟨index, hindex⟩ := List.mem_iff_getElem?.1 hr
    have hroute : buildRoute r index ∈ (buildRouter c).routes :=
      List.mem_map.2 ⟨(r, index), List.mem_zipIdx_iff_getElem?.2 hindex, rfl⟩
    have htarget : buildTarget r u ∈ (buildRoute r index).targets := by
      rw [targets_buildRoute]
      exact List.mem_map_of_mem hu
    exact h _ hroute _ htarget
  · intro h route hroute target htarget
    obtain ⟨⟨r, index⟩, hmem, rfl⟩ := List.mem_map.1 hroute
    rw [targets_buildRoute] at htarget
    obtain ⟨u, hu, rfl⟩ := List.mem_map.1 htarget
    exact h r (List.mem_of_getElem? (List.mem_zipIdx_iff_getElem?.1 hmem)) u hu

/-! ## Upstreams that are usable -/

/-- No blank at either end, no slash, and a URI: what the validator does not ask. -/
structure Plain (validUri : Str → Bool) (upstream : Str) : Prop where
  trimmed : trim upstream = upstream
  no_slash : '/' ∉ upstream
  uri : validUri (addressUri upstream) = true

theorem isHostPort_eq_true {upstream : Str} : isHostPort upstream = true ↔
    ∃ host port, trim upstream = host ++ ':' :: port ∧ ':' ∉ port ∧ host ≠ [] ∧ (parseUnsigned 65536 port).isSome = true := by
  unfold isHostPort
  constructor
  · intro h
    split at h
    · rename_i host port hsplit
      obtain ⟨heq, hport⟩ := Text.rsplitOnce_eq_some.1 hsplit
      rw [Bool.and_eq_true, decide_eq_true_eq] at h
      exact ⟨host, port, heq, hport, h⟩
    · cases h
  · rintro ⟨host, port, heq, hport, hhost, hparsed⟩
    rw [Text.rsplitOnce_eq_some.2 ⟨heq, hport⟩]
    simp [hhost, hparsed]

/-- An address is usable by the name the router gives it alone. -/
theorem Usable.sni_eq {validUri : Str → Bool} {address sni : Str} (h : Usable validUri address sni) :
    sni = ((rsplitOnce ':' address).map Prod.fst).getD [] := by
  obtain ⟨port, heq, hport, -⟩ := h.hostPort
  rw [Text.rsplitOnce_eq_some.2 ⟨heq, hport⟩]
  rfl

/-- **An upstream that the validator accepts is usable exactly when it is plain**; one that it refuses never is. -/
theorem usable_iff (validUri : Str → Bool) (upstream : Str) :
    (∃ host, Usable validUri upstream host) ↔ isHostPort upstream = true ∧ Plain validUri upstream := by
  constructor
  · rintro ⟨host, h⟩
    refine ⟨isHostPort_eq_true.2 ?_, h.trimmed, h.no_slash, h.uri⟩
    obtain ⟨port, heq, hport, hparsed⟩ := h.hostPort
    rw [h.trimmed]
    exact ⟨host, port, heq, hport, h.host_ne, hparsed⟩
  · rintro ⟨hchecked, hplain⟩
    obtain ⟨host, port, heq, hport, hhost, hparsed⟩ := isHostPort_eq_true.1 hchecked
    rw [hplain.trimmed] at heq
    refine ⟨host, ⟨port, heq, hport, hparsed⟩, hhost, hplain.trimmed, hplain.no_slash, ?_, hplain.uri⟩
    intro hscheme
    exact hplain.no_slash (hscheme.subset (by decide))

def routeTo (upstream : Str) : RouteConfig := ⟨none, none, [upstream], none, false, false, [], [], false, []⟩

def configTo (upstream : Str) : Config := ⟨none, none, none, none, none, none, none, none, none, [routeTo upstream]⟩

/-- A configuration file with one upstream. -/
def fileTo (upstream : Str) : Str :=
  "listen = \"0.0.0.0:8080\"\n[[route]]\nupstream = \"".toList ++ upstream ++ "\"\n".toList

/-- The parser of TOML on the two files. -/
def parseFile (input : Str) : Except Str Config :=
  if input = fileTo " 127.0.0.1:3000 ".toList then .ok (configTo " 127.0.0.1:3000 ".toList)
  else if input = fileTo "http://127.0.0.1:3000".toList then .ok (configTo "http://127.0.0.1:3000".toList)
  else .error "unknown".toList

theorem fileTo_injective {u w : Str} (h : fileTo u = fileTo w) : u = w :=
  List.append_cancel_left (List.append_cancel_right h)

/-- A file whose one upstream is checked is accepted, and its target's address is that upstream. -/
theorem usable_of_fileTo (validUri : Str → Bool) {u : Str} (hparse : parseFile (fileTo u) = .ok (configTo u))
    (hvalid : (configTo u).validate = .ok ()) :
    Config.fromToml parseFile (fileTo u) = .ok (configTo u) ∧
      (UpstreamsUsable validUri parseFile (fileTo u) → ∃ host, Usable validUri u host) := by
  obtain ⟨-, hok⟩ | ⟨hnot, -⟩ := fromToml_of_parse hparse
  · refine ⟨hok, fun h => ?_⟩
    exact ⟨_, (forall_targets_iff _ (Usable validUri)).1 (h.accepted _ hok) (routeTo u) List.mem_cons_self u
      List.mem_cons_self⟩
  · exact absurd ((validate_eq_ok_iff _).1 hvalid) hnot

end Zaphyl
