import NetbirdHa.NetipProofs

/-! # IP restrictions of the reverse proxy

`ParseFilter` builds a filter from configured texts and skips the CIDRs that do
not parse; `Check` decides about the address of a client.  The configuration is
meant to keep out who is in no allowed CIDR, if there are any, and who is in a
blocked one (`Permits`), where IPv4-mapped notation stands for IPv4.

The filter lets others through in three cases (`LetsThrough`): none of the
allowed CIDRs parses, so that nothing is left to restrict; a blocked CIDR is in
mapped notation, which no address is compared in; or the address has a zone, and
is in no prefix then. -/

namespace Restrict

open Netip Prefix

/-! ## The filter -/

/-- `DecisionType`; every type but the other two is a ban. -/
inductive DecisionType where
  | ban
  | captcha
  | throttle
  | other (name : String)
deriving DecidableEq

/-- The decisions CrowdSec has sent. -/
structure CrowdSecChecker where
  ready : Bool
  checkIP : Addr → Option DecisionType

/-- What is done with a decision. -/
inductive CrowdSecMode where
  | off
  | enforce
  | observe
  | other (name : String)
deriving DecidableEq

/-- `GeoResolver`, with the country code of an address. -/
structure GeoResolver where
  available : Bool
  lookupAddr : Addr → String

/-- A filter: its lists, and how it asks CrowdSec. -/
structure Filter where
  allowedCIDRs : List Prefix := []
  blockedCIDRs : List Prefix := []
  allowedCountries : List String := []
  blockedCountries : List String := []
  crowdSec : Option CrowdSecChecker := none
  crowdSecMode : CrowdSecMode := .off

/-- A filter as it is configured, its prefixes unread. -/
structure FilterConfig where
  allowedCIDRs : List String := []
  blockedCIDRs : List String := []
  allowedCountries : List String := []
  blockedCountries : List String := []
  crowdSec : Option CrowdSecChecker := none
  crowdSecMode : CrowdSecMode := .off

/-- The CIDRs that parse, masked. -/
def parseCIDRs (cidrs : List String) : List Prefix :=
  cidrs.filterMap fun cidr => (parsePrefix cidr).map Prefix.masked

/-- CrowdSec is to be asked. -/
def hasCrowdSec (cfg : FilterConfig) : Bool :=
  cfg.crowdSecMode = .enforce || cfg.crowdSecMode = .observe

/-- `ParseFilter`: no filter if nothing is restricted; `toUpper` is `strings.ToUpper`. -/
def parseFilter (toUpper : String → String) (cfg : FilterConfig) : Option Filter :=
  if cfg.allowedCIDRs = [] ∧ cfg.blockedCIDRs = [] ∧ cfg.allowedCountries = [] ∧
      cfg.blockedCountries = [] ∧ hasCrowdSec cfg = false then none
  else some
    { allowedCIDRs := parseCIDRs cfg.allowedCIDRs
      blockedCIDRs := parseCIDRs cfg.blockedCIDRs
      allowedCountries := cfg.allowedCountries.map toUpper
      blockedCountries := cfg.blockedCountries.map toUpper
      crowdSec := if hasCrowdSec cfg then cfg.crowdSec else none
      crowdSecMode := if hasCrowdSec cfg then cfg.crowdSecMode else .off }

/-- Why a connection is denied. -/
inductive Verdict where
  | allow
  | denyCIDR
  | denyCountry
  | denyGeoUnavailable
  | denyCrowdSecBan
  | denyCrowdSecCaptcha
  | denyCrowdSecThrottle
  | denyCrowdSecUnavailable
deriving DecidableEq

namespace Filter

variable (f : Filter) (addr : Addr) (geo : Option GeoResolver)

/-- `checkCIDR`: the allowed prefixes first, then the blocked ones. -/
def checkCIDR : Verdict :=
  if f.allowedCIDRs ≠ [] ∧ f.allowedCIDRs.any (·.contains addr) = false then .denyCIDR
  else if f.blockedCIDRs.any (·.contains addr) then .denyCIDR
  else .allow

/-- `checkCountry`: without a database, a list of countries denies all. -/
def checkCountry : Verdict :=
  if f.allowedCountries = [] ∧ f.blockedCountries = [] then .allow
  else
    match geo with
    | none => .denyGeoUnavailable
    | some geo =>
      if geo.available = false then .denyGeoUnavailable
      else if geo.lookupAddr addr = "" then
        -- an unknown country fails an allowlist only
        if f.allowedCountries ≠ [] then .denyCountry else .allow
      else if f.allowedCountries ≠ [] ∧ geo.lookupAddr addr ∉ f.allowedCountries then .denyCountry
      else if geo.lookupAddr addr ∈ f.blockedCountries then .denyCountry
      else .allow

/-- What is said where CrowdSec cannot be asked. -/
def unavailable : Verdict :=
  if f.crowdSecMode = .enforce then .denyCrowdSecUnavailable else .allow

/-- `checkCrowdSec`. -/
def checkCrowdSec : Verdict :=
  if f.crowdSecMode = .off then .allow
  else
    match f.crowdSec with
    | none => f.unavailable
    | some checker =>
      if checker.ready = false then f.unavailable
      else
        match checker.checkIP addr with
        | none => .allow
        | some .captcha => .denyCrowdSecCaptcha
        | some .throttle => .denyCrowdSecThrottle
        | some _ => .denyCrowdSecBan

end Filter

/-- `Check`: CIDRs first, then countries, then CrowdSec. -/
def check (f : Option Filter) (addr : Addr) (geo : Option GeoResolver) : Verdict :=
  match f with
  | none => .allow
  | some f =>
    if f.checkCIDR addr.unmap ≠ .allow then f.checkCIDR addr.unmap
    else if f.checkCountry addr.unmap geo ≠ .allow then f.checkCountry addr.unmap geo
    else f.checkCrowdSec addr.unmap

/-- `IsCrowdSec`. -/
def Verdict.isCrowdSec : Verdict → Bool
  | .denyCrowdSecBan | .denyCrowdSecCaptcha | .denyCrowdSecThrottle
    | .denyCrowdSecUnavailable => true
  | _ => false

/-- `IsObserveOnly`: a verdict of CrowdSec where it only observes. -/
def Filter.isObserveOnly (f : Filter) (v : Verdict) : Bool :=
  v.isCrowdSec && f.crowdSecMode = .observe

/-! ## What the configuration is meant to permit -/

section

variable (toUpper : String → String) (cfg : FilterConfig) (addr : Addr) (cidr : String)
  (geo : Option GeoResolver)

/-- The address is in the CIDR, in IPv4 form where one of them is mapped. -/
def LiesIn : Prop :=
  ∃ p ∈ parsePrefix cidr, p.unmap.Holds addr.unmap
deriving Decidable

/-- The address is in an allowed CIDR, if any is configured, and in no blocked one. -/
def Permits : Prop :=
  (cfg.allowedCIDRs ≠ [] → ∃ cidr ∈ cfg.allowedCIDRs, LiesIn addr cidr) ∧
    ∀ cidr ∈ cfg.blockedCIDRs, ¬ LiesIn addr cidr
deriving Decidable

/-- The filter compares the address with the CIDR and finds it there. -/
def Compared : Prop :=
  ∃ p ∈ parsePrefix cidr, p.contains addr.unmap
deriving Decidable

/-- The address is in the CIDR, and the CIDR is in mapped notation or the address has a zone. -/
def Missed : Prop :=
  ∃ p ∈ parsePrefix cidr, p.unmap.Holds addr.unmap ∧ (p.unmap ≠ p ∨ addr.unmap.zone ≠ "")
deriving Decidable

/-- The countries and CrowdSec let the address through. -/
def OthersAllow : Prop :=
  ∀ f ∈ parseFilter toUpper cfg,
    f.checkCountry addr.unmap geo = .allow ∧ f.checkCrowdSec addr.unmap = .allow
deriving Decidable

/-- An address that should be kept out gets through: the other checks allow it, no blocked CIDR is
    found to have it, and either no allowed CIDR parses or a blocked one is missed. -/
def LetsThrough : Prop :=
  OthersAllow toUpper cfg addr geo ∧ (∀ cidr ∈ cfg.blockedCIDRs, ¬ Compared addr cidr) ∧
    ((cfg.allowedCIDRs ≠ [] ∧ ∀ cidr ∈ cfg.allowedCIDRs, parsePrefix cidr = none) ∨
      ((cfg.allowedCIDRs = [] ∨ ∃ cidr ∈ cfg.allowedCIDRs, Compared addr cidr) ∧
        ∃ cidr ∈ cfg.blockedCIDRs, Missed addr cidr))
deriving Decidable

end

section

variable {toUpper : String → String} {cfg : FilterConfig} {addr : Addr} {geo : Option GeoResolver}
  {cidr : String} {cidrs : List String}

/-- What is found in a CIDR is in it … -/
theorem liesIn_of_compared (h : Compared addr cidr) : LiesIn addr cidr := by
  obtain ⟨p, hp, hc⟩ := h
  exact ⟨p, hp, holds_unmap (contains_iff.mp hc).1⟩

/-- … and what is in it is found unless it is missed. -/
theorem liesIn_iff : LiesIn addr cidr ↔ Compared addr cidr ∨ Missed addr cidr := by
  constructor
  · rintro ⟨p, hp, hh⟩
    by_cases hm : p.unmap ≠ p ∨ addr.unmap.zone ≠ ""
    · exact .inr ⟨p, hp, hh, hm⟩
    obtain ⟨hs, hz⟩ := not_or.mp hm
    rw [not_not] at hs hz
    rw [hs] at hh
    exact .inl ⟨p, hp, contains_iff.mpr ⟨hh, hz⟩⟩
  · rintro (h | ⟨p, hp, hh, -⟩)
    · exact liesIn_of_compared h
    · exact ⟨p, hp, hh⟩

theorem any_parseCIDRs :
    (parseCIDRs cidrs).any (·.contains addr.unmap) ↔ ∃ cidr ∈ cidrs, Compared addr cidr := by
  rw [parseCIDRs, List.any_filterMap, List.any_eq_true]
  refine exists_congr fun cidr => and_congr_right fun _ => ?_
  rw [Compared]
  cases parsePrefix cidr with
  | none => simp
  | some p => simp

theorem parseCIDRs_eq_nil : parseCIDRs cidrs = [] ↔ ∀ cidr ∈ cidrs, parsePrefix cidr = none := by
  simp [parseCIDRs, List.filterMap_eq_nil_iff]

theorem any_blocked_eq_false : (parseCIDRs cidrs).any (·.contains addr.unmap) = false ↔
    ∀ cidr ∈ cidrs, ¬ Compared addr cidr := by
  rw [← Bool.not_eq_true, any_parseCIDRs]
  simp only [not_exists, not_and]

/-- The two lists of ranges, as they were parsed. -/
theorem checkCIDR_allow_iff {f : Filter} (ha : f.allowedCIDRs = parseCIDRs cfg.allowedCIDRs)
    (hb : f.blockedCIDRs = parseCIDRs cfg.blockedCIDRs) : f.checkCIDR addr.unmap = .allow ↔
      (∀ cidr ∈ cfg.blockedCIDRs, ¬ Compared addr cidr) ∧
        ((∀ cidr ∈ cfg.allowedCIDRs, parsePrefix cidr = none) ∨
          ∃ cidr ∈ cfg.allowedCIDRs, Compared addr cidr) := by
  rw [Filter.checkCIDR, ha, hb, ← parseCIDRs_eq_nil, ← any_parseCIDRs, ← any_blocked_eq_false]
  split
  · next hk =>
    -- a list of allowed ranges is left, and none has the address
    refine iff_of_false (fun h => nomatch h) ?_
    rintro ⟨-, hnil | han⟩
    · exact hk.1 hnil
    · cases han.symm.trans hk.2
  · next hk =>
    have hp : parseCIDRs cfg.allowedCIDRs = [] ∨
        (parseCIDRs cfg.allowedCIDRs).any (·.contains addr.unmap) := by
      by_contra hno
      obtain ⟨hn, han⟩ := not_or.mp hno
      exact hk ⟨hn, Bool.not_eq_true _ ▸ han⟩
    split
    · next han => exact iff_of_false (fun h => nomatch h) fun h => nomatch han.symm.trans h.1
    · next han => exact iff_of_true rfl ⟨Bool.not_eq_true _ ▸ han, hp⟩

/-- **When the filter allows an address**: no list that is left keeps it out. -/
theorem check_allow_iff : check (parseFilter toUpper cfg) addr geo = .allow ↔
    OthersAllow toUpper cfg addr geo ∧ (∀ cidr ∈ cfg.blockedCIDRs, ¬ Compared addr cidr) ∧
      ((∀ cidr ∈ cfg.allowedCIDRs, parsePrefix cidr = none) ∨
        ∃ cidr ∈ cfg.allowedCIDRs, Compared addr cidr) := by
  rw [OthersAllow, parseFilter]
  split
  · next hnil =>
    -- nothing is configured, so there is no filter
    obtain ⟨ha, hb, -⟩ := hnil
    simp [check, ha, hb]
  · rw [check]
    generalize hf : (⟨_, _, _, _, _, _⟩ : Filter) = f
    rw [← checkCIDR_allow_iff (f := f) (by rw [← hf]) (by rw [← hf])]
    by_cases h₁ : f.checkCIDR addr.unmap = .allow
    · by_cases h₂ : f.checkCountry addr.unmap geo = .allow
      · simp [h₁, h₂]
      · simp [h₁, h₂]
    · simp [h₁]

/-- **When the filter keeps out whom it is meant to**: exactly if nobody is let through. -/
theorem permits_iff_not_letsThrough (toUpper : String → String) (cfg : FilterConfig) (addr : Addr)
    (geo : Option GeoResolver) :
    (check (parseFilter toUpper cfg) addr geo = .allow → Permits cfg addr) ↔
      ¬ LetsThrough toUpper cfg addr geo := by
  rw [check_allow_iff]
  constructor
  · rintro h ⟨ho, hb, ⟨hne, hn⟩ | ⟨ha, cidr, hc, hm⟩⟩
    · obtain ⟨cidr, hc, p, hp, -⟩ := (h ⟨ho, hb, .inl hn⟩).1 hne
      rw [hn cidr hc] at hp
      cases hp
    grind [liesIn_iff, Permits]
  · rintro hno ⟨ho, hb, ha⟩
    -- the allowed list is empty, or the address was found in it
    have hi : cfg.allowedCIDRs = [] ∨ ∃ cidr ∈ cfg.allowedCIDRs, Compared addr cidr := by
      refine ha.imp_left fun hn => ?_
      by_contra hne
      exact hno ⟨ho, hb, .inl ⟨hne, hn⟩⟩
    refine ⟨fun hne => ?_, fun cidr hc hl => ?_⟩
    · obtain ⟨cidr, hc, hco⟩ := hi.resolve_left hne
      exact ⟨cidr, hc, liesIn_of_compared hco⟩
    · rcases liesIn_iff.mp hl with hco | hm
      · exact hb cidr hc hco
      · exact hno ⟨ho, hb, .inr ⟨hi, cidr, hc, hm⟩⟩

end

/-- A blocked CIDR in mapped notation lets its addresses through, and so does an
    allowlist that does not parse. -/
theorem mapped_block_missed :
    (check (parseFilter id { blockedCIDRs := ["::ffff:10.0.0.0/104"] }) (.v4 0x0a010203) none =
        .allow ∧ ¬ Permits { blockedCIDRs := ["::ffff:10.0.0.0/104"] } (.v4 0x0a010203)) ∧
    (check (parseFilter id { allowedCIDRs := ["10.0.0.0"] }) (.v4 0xc0000201) none = .allow ∧
      ¬ Permits { allowedCIDRs := ["10.0.0.0"] } (.v4 0xc0000201)) := by
  decide

end Restrict
