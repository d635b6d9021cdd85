import NetbirdHa.DnsNameProofs
import NetbirdHa.NetipProofs

/-! # The resolver of local zones

The resolver holds the records of the custom zones by question.  A question that
has no records of its own is answered from the wildcard of its name, or by
following CNAME records; a target that is not ours is looked up outside.

Three places look at wildcards, each in its own way:

* the direct lookup, only if the queried name has no record of any type;
* the first step of a CNAME chain, whether or not the name has records;
* the resolution of a CNAME target, only to tell that the name exists.

The second place answers from a wildcard for a name that exists
(`wildcard_only_for_missing_iff`); the third one does not answer what a direct
query for the target would (`alias_answers_as_target`).

What a wildcard contributed to a result is kept in `LookupResult.wild`, which the
code does not have. -/

namespace LocalResolver

open DnsName List Option Function

/-- `dns.TypeA`. -/
def typeA : Nat := 1
/-- `dns.TypeNS`. -/
def typeNS : Nat := 2
/-- `dns.TypeCNAME`. -/
def typeCNAME : Nat := 5
/-- `dns.TypeSOA`. -/
def typeSOA : Nat := 6
/-- `dns.TypeAAAA`. -/
def typeAAAA : Nat := 28

/-- `dns.RcodeSuccess`. -/
def rcodeSuccess : Int := 0
/-- `dns.RcodeServerFailure`. -/
def rcodeServerFailure : Int := 2
/-- `dns.RcodeNameError`. -/
def rcodeNameError : Int := 3
/-- `dns.RcodeNotImplemented`. -/
def rcodeNotImplemented : Int := 4

/-- `dns.Question`. -/
structure Question where
  name : Name
  qtype : Nat
  qclass : Nat
deriving DecidableEq

/-- The data of a record, as far as the resolver reads it. -/
inductive Rdata where
  | cname (target : Name)
  | addr (ip : Netip.Addr)
  | other (text : List Char)
deriving DecidableEq

/-- A resource record; its length on the wire is left out. -/
structure RR where
  name : Name
  rrtype : Nat
  qclass : Nat
  ttl : Nat
  rdata : Rdata
deriving DecidableEq

/-- What a failed lookup of the system resolver reports. -/
inductive NetError where
  | notFound
  | otherDNS
  | other
deriving DecidableEq

/-- A record as management sends it. -/
structure SimpleRecord where
  name : Name
  type : Int
  cls : List Char
  ttl : Int
  rdata : List Char

/-- A zone as management sends it. -/
structure CustomZone where
  domain : Name
  records : List SimpleRecord
  nonAuthoritative : Bool

/-- The libraries and the system resolver. -/
structure Env where
  lib : Library
  /-- `dns.NewRR`; none for an error. -/
  newRR : List Char → Option RR
  /-- `dns.Type.String`. -/
  typeText : Int → List Char
  /-- `LookupNetIP` for IPv4 (true) or IPv6. -/
  lookupNetIP : Bool → Name → Except NetError (List Netip.Addr)

/-- The records by question, the names that have some, and the zones with whether they
    are non-authoritative. -/
structure Resolver where
  records : Question → Option (List RR)
  domains : Name → Bool
  zones : Name → Option Bool
  nonempty : ∀ q l, records q = some l → l ≠ []
  owned : ∀ name, domains name ↔ ∃ q l, q.name = name ∧ records q = some l

/-! ## Registration -/

/-- `NewResolver`: no record, no zone. -/
def newResolver : Resolver where
  records _ := none
  domains _ := false
  zones _ := none
  nonempty := fun _ _ h => nomatch h
  owned _ := iff_of_false Bool.false_ne_true (fun ⟨_, _, _, h⟩ => nomatch h)

section

variable (env : Env) (d : Resolver) (q : Question)

/-- `String` of a record. -/
def SimpleRecord.text (r : SimpleRecord) : List Char :=
  env.lib.fqdn r.name ++ ' ' :: (toString r.ttl).toList ++ ' ' :: r.cls ++
    ' ' :: env.typeText r.type ++ ' ' :: r.rdata

/-- One more record under its question. -/
def Resolver.append (rr : RR) : Resolver where
  records := update d.records q (some ((d.records q).getD [] ++ [rr]))
  domains := update d.domains q.name true
  zones := d.zones
  nonempty := by
    intro q' l h
    by_cases hq : q' = q
    · subst hq
      rw [update_self] at h
      rw [← Option.some.inj h]
      exact append_ne_nil_of_right_ne_nil _ (cons_ne_nil _ _)
    · rw [update_of_ne hq] at h
      exact d.nonempty q' l h
  owned := by
    intro name
    by_cases hname : name = q.name
    · subst hname
      rw [update_self]
      exact iff_of_true rfl ⟨q, _, rfl, update_self ..⟩
    rw [update_of_ne hname, d.owned]
    refine exists_congr fun q' => exists_congr fun l => and_congr_right fun hq' => ?_
    rw [update_of_ne]
    rintro rfl
    exact hname hq'.symm

/-- `registerRecord`: a record that cannot be read is skipped. -/
def Resolver.registerRecord (record : SimpleRecord) : Resolver :=
  match env.newRR (record.text env) with
  | none => d
  | some rr => d.append ⟨env.lib.toLower (env.lib.fqdn rr.name), rr.rrtype, rr.qclass⟩ rr

/-- Enters a zone. -/
def Resolver.setZone (name : Name) (nonAuthoritative : Bool) : Resolver :=
  { d with zones := update d.zones name (some nonAuthoritative) }

/-- `Update`: everything is replaced. -/
def update (customZones : List CustomZone) : Resolver :=
  customZones.foldl (fun d zone => zone.records.foldl (Resolver.registerRecord env)
      (d.setZone (env.lib.toLower (env.lib.fqdn zone.domain)) zone.nonAuthoritative)) newResolver

/-- The first record goes to the end. -/
def Resolver.rotate : Resolver :=
  match h : d.records q with
  | some (first :: second :: rest) =>
    { d with
      records := Function.update d.records q (some (second :: rest ++ [first]))
      nonempty := by
        intro q' l hl
        by_cases hq : q' = q
        · subst hq
          rw [update_self] at hl
          rw [← Option.some.inj hl]
          exact cons_ne_nil _ _
        · rw [update_of_ne hq] at hl
          exact d.nonempty q' l hl
      owned := by
        intro name
        rw [d.owned]
        refine exists_congr fun q' => ?_
        by_cases hq : q' = q
        · subst hq
          rw [update_self, h]
          exact ⟨fun ⟨_, hn, _⟩ => ⟨_, hn, rfl⟩, fun ⟨_, hn, _⟩ => ⟨_, hn, rfl⟩⟩
        · rw [update_of_ne hq] }
  | _ => d

end

/-! ## Names and zones -/

/-- `transformDomainToWildcard`: a star for the first label. -/
def transformDomainToWildcard (domain : Name) : Name :=
  ['.'].intercalate ((labels domain).set 0 ['*'])

/-- The question for the wildcard that covers the name. -/
def transformToWildcard (question : Question) : Question :=
  { question with name := transformDomainToWildcard question.name }

/-- NS and SOA questions get no wildcard answer. -/
def supportsWildcard (qtype : Nat) : Bool := decide (qtype ≠ typeNS) && decide (qtype ≠ typeSOA)

/-- The parent domains of a name, the nearest first. -/
def parents : Name → List Name
  | [] => []
  | c :: rest => if c = '.' then (if rest = [] then [] else rest :: parents rest) else parents rest

section

variable (env : Env) (d : Resolver) (q : Question)

/-- `findZone`: whether the zone is non-authoritative, if there is one. -/
def Resolver.findZone (qname : Name) : Option Bool :=
  let qname := env.lib.toLower (env.lib.fqdn qname)
  (qname :: parents qname).findSome? d.zones

/-- `isInManagedZone`. -/
def Resolver.isInManagedZone (name : Name) : Bool :=
  (d.findZone env name).isSome

/-- `hasRecordsForDomain`: the name, or the wildcard that covers it, has a record of some type. -/
def Resolver.hasRecordsForDomain (domainName : Name) (qtype : Nat) : Bool :=
  d.domains domainName ||
    (supportsWildcard qtype && d.domains (transformDomainToWildcard domainName))

/-- The records kept for a question. -/
def Resolver.getRecords : List RR := (d.records q).getD []

/-- Records are kept for the question. -/
def Resolver.hasRecord : Bool := (d.records q).isSome

end

/-! ## Lookups -/

/-- `lookupResult`, with the wildcard questions whose records are in it. -/
structure LookupResult where
  records : List RR := []
  rcode : Int
  hasExternalData : Bool := false
  wild : List Question := []
deriving DecidableEq

/-- `responseFromWildRecords`: the records get the queried name. -/
def responseFromWildRecords (originalName : Name) (wildQuestion : Question)
    (wildRecords : List RR) :
    LookupResult :=
  { records := wildRecords.map (fun rr => { rr with name := originalName })
    rcode := rcodeSuccess
    wild := [wildQuestion] }

/-- `getRcodeForNotFound`: a name with an address of the other kind exists. -/
def getRcodeForNotFound (env : Env) (host : Name) (qtype : Nat) : Int :=
  if qtype = typeAAAA ∨ qtype = typeA then
    match env.lookupNetIP (decide (qtype = typeAAAA)) host with
    | .error .notFound => rcodeNameError
    | _ => rcodeSuccess
  else rcodeNameError

/-- The code for a failed lookup outside the zones. -/
def getRcodeForError (env : Env) (host : Name) (qtype : Nat) : NetError → Int
  | .notFound => getRcodeForNotFound env host qtype
  | _ => rcodeServerFailure

/-- The address records of a lookup's answer. -/
def ipsToRRs (name : Name) (ips : List Netip.Addr) (ttl : Nat) : List RR :=
  ips.map fun ip => ⟨name, if ip.is6 then typeAAAA else typeA, 1, ttl, .addr ip⟩

/-- `resolveExternal`: only address questions are looked up outside. -/
def resolveExternal (env : Env) (name : Name) (qtype : Nat) : LookupResult :=
  if qtype = typeA ∨ qtype = typeAAAA then
    match env.lookupNetIP (decide (qtype = typeA)) name with
    | .error e => { rcode := getRcodeForError env name qtype e, hasExternalData := true }
    | .ok ips =>
      { records := ipsToRRs name (ips.map Netip.Addr.unmap) 60
        rcode := rcodeSuccess
        hasExternalData := true }
  else { rcode := rcodeNotImplemented }

/-- `resolveCNAMETarget`: the code -1 says to keep following the chain. -/
def Resolver.resolveCNAMETarget (env : Env) (d : Resolver) (targetName : Name) (targetType : Nat)
    (qclass : Nat) : LookupResult :=
  let records := d.getRecords ⟨targetName, targetType, qclass⟩
  if records ≠ [] then { records, rcode := rcodeSuccess }
  else if d.hasRecord ⟨targetName, typeCNAME, qclass⟩ then { rcode := -1 }
  else if d.hasRecordsForDomain targetName targetType then { rcode := rcodeSuccess }
  else if d.isInManagedZone env targetName then { rcode := rcodeNameError }
  else resolveExternal env targetName targetType

/-- `buildChainResult`, for the chain and the wildcards that are in it. -/
def buildChainResult (chain : List RR) (wild : List Question) (target : LookupResult) :
    LookupResult :=
  let records := chain ++ target.records
  if target.hasExternalData ∧ target.rcode = rcodeServerFailure then
    { records, rcode := rcodeServerFailure, hasExternalData := true, wild }
  else { records, rcode := target.rcode, hasExternalData := target.hasExternalData, wild }

/-- The CNAME records of a step of the chain: the name's own, else those of its wildcard. -/
def Resolver.cnameRecords (d : Resolver) (cnameQuestion : Question) (targetType : Nat) :
    LookupResult :=
  let own := d.getRecords cnameQuestion
  let wild := d.getRecords (transformToWildcard cnameQuestion)
  if own = [] ∧ supportsWildcard targetType ∧ wild ≠ [] then
    responseFromWildRecords cnameQuestion.name (transformToWildcard cnameQuestion) wild
  else { records := own, rcode := rcodeSuccess }

/-- The target of the first record, if that is a CNAME. -/
def firstTarget : List RR → Option Name
  | { rdata := .cname target, .. } :: _ => some target
  | _ => none

/-- The loop of `lookupCNAMEChain`, for so many more rounds. -/
def Resolver.followChain (env : Env) (d : Resolver) (targetType : Nat) :
    Nat → Question → List RR → List Question → LookupResult
  | 0, _, chain, wild => { records := chain, rcode := rcodeSuccess, wild }
  | n + 1, cnameQuestion, chain, wild =>
    let found := d.cnameRecords cnameQuestion targetType
    if found.records = [] then { records := chain, rcode := rcodeSuccess, wild }
    else
      let chain := chain ++ found.records
      let wild := wild ++ found.wild
      match firstTarget found.records with
      | none => { records := chain, rcode := rcodeSuccess, wild }
      | some target =>
        let targetName := env.lib.toLower target
        let targetResult := d.resolveCNAMETarget env targetName targetType cnameQuestion.qclass
        if targetResult.rcode = -1 then
          d.followChain env targetType n ⟨targetName, typeCNAME, cnameQuestion.qclass⟩ chain wild
        else buildChainResult chain wild targetResult

/-- How many aliases are followed. -/
def maxDepth : Nat := 8

/-- `lookupCNAMEChain`. -/
def Resolver.lookupCNAMEChain (env : Env) (d : Resolver) (cnameQuestion : Question)
    (targetType : Nat) : LookupResult :=
  d.followChain env targetType maxDepth cnameQuestion [] []

/-- `lookupRecords`: the result, and the resolver after the records have been rotated. -/
def Resolver.lookupRecords (env : Env) (d : Resolver) (question : Question) :
    LookupResult × Resolver :=
  let wildQuestion := transformToWildcard question
  match d.records question with
  | some records => ({ records, rcode := rcodeSuccess }, d.rotate question)
  | none =>
    match (if supportsWildcard question.qtype && !d.domains question.name then
        d.records wildQuestion else none) with
    | some records =>
      (responseFromWildRecords question.name wildQuestion records, d.rotate wildQuestion)
    | none =>
      if question.qtype ≠ typeCNAME then
        (d.lookupCNAMEChain env { question with qtype := typeCNAME } question.qtype, d)
      else ({ rcode := rcodeNameError }, d)

/-- `determineRcode`: a name with records of another type is no name error. -/
def Resolver.determineRcode (d : Resolver) (question : Question) (result : LookupResult) : Int :=
  if result.rcode ≠ 0 then result.rcode
  else if d.hasRecordsForDomain question.name question.qtype then rcodeSuccess
  else rcodeNameError

/-! ## A zone -/

/-- Reads the records of one zone; nothing is found outside. -/
def exampleEnv : Env where
  lib := ascii
  newRR text :=
    if text = "host.example.com. 300 IN A 10.0.0.1".toList then
      some ⟨"host.example.com.".toList, typeA, 1, 300, .addr (.v4 0x0a000001#32)⟩
    else if text = "www.example.com. 300 IN CNAME host.example.com.".toList then
      some ⟨"www.example.com.".toList, typeCNAME, 1, 300, .cname "host.example.com.".toList⟩
    else if text = "shop.example.com. 300 IN CNAME www.example.com.".toList then
      some ⟨"shop.example.com.".toList, typeCNAME, 1, 300, .cname "www.example.com.".toList⟩
    else if text = "*.example.com. 300 IN CNAME host.example.com.".toList then
      some ⟨"*.example.com.".toList, typeCNAME, 1, 300, .cname "host.example.com.".toList⟩
    else none
  typeText t := if t = 1 then "A".toList else "CNAME".toList
  lookupNetIP _ _ := .error .notFound

/-- An address. -/
def hostRecord : SimpleRecord :=
  ⟨"host.example.com".toList, 1, "IN".toList, 300, "10.0.0.1".toList⟩

/-- An alias of `hostRecord`'s name. -/
def wwwRecord : SimpleRecord :=
  ⟨"www.example.com".toList, 5, "IN".toList, 300, "host.example.com.".toList⟩

/-- A wildcard alias of `hostRecord`'s name. -/
def starRecord : SimpleRecord :=
  ⟨"*.example.com".toList, 5, "IN".toList, 300, "host.example.com.".toList⟩

variable {q : Question} {qtype qclass : Nat} {n : Name}

/-! ## Codes -/

section

variable {env : Env} {d : Resolver}

open Resolver

theorem getRecords_eq_nil_iff : d.getRecords q = [] ↔ d.records q = none := by
  rw [getRecords]
  cases h : d.records q with
  | none => exact iff_of_true rfl rfl
  | some l => exact iff_of_false (d.nonempty q l h) (some_ne_none l)

theorem domains_of_records (h : d.records q ≠ none) : d.domains q.name := by
  obtain ⟨l, hl⟩ := ne_none_iff_exists'.mp h
  exact (d.owned q.name).mpr ⟨q, l, rfl, hl⟩

/-- No lookup outside asks to follow the chain. -/
theorem resolveExternal_rcode (name : Name) (qtype : Nat) :
    (resolveExternal env name qtype).rcode ≠ -1 := by
  rw [resolveExternal]
  split
  · split
    · next e _ =>
      cases e with
      | notFound =>
        show getRcodeForNotFound env name qtype ≠ -1
        rw [getRcodeForNotFound]
        split
        · split <;> decide
        · decide
      | otherDNS | other => exact (by decide : rcodeServerFailure ≠ -1)
    · exact (by decide : rcodeSuccess ≠ -1)
  · exact (by decide : rcodeNotImplemented ≠ -1)

/-- Following goes on exactly at a name with a CNAME and no record of the type. -/
theorem rcode_resolveCNAMETarget : (d.resolveCNAMETarget env name qtype qclass).rcode = -1 ↔
    d.records ⟨name, qtype, qclass⟩ = none ∧ d.records ⟨name, typeCNAME, qclass⟩ ≠ none := by
  rw [← getRecords_eq_nil_iff, ← isSome_iff_ne_none, ← hasRecord, resolveCNAMETarget]
  by_cases hr : d.getRecords ⟨name, qtype, qclass⟩ = []
  · rw [if_neg (not_not.mpr hr)]
    by_cases hc : d.hasRecord ⟨name, typeCNAME, qclass⟩
    · rw [if_pos hc]
      exact iff_of_true rfl ⟨hr, hc⟩
    rw [if_neg hc]
    refine iff_of_false ?_ (hc ·.2)
    split
    · decide
    · split
      · decide
      · exact resolveExternal_rcode name qtype
  · rw [if_pos hr]
    exact iff_of_false (by decide : rcodeSuccess ≠ -1) (hr ·.1)

/-! ## Wildcards -/

theorem cnameRecords_of_own (h : d.records q ≠ none) (qtype : Nat) :
    d.cnameRecords q qtype = { records := d.getRecords q, rcode := rcodeSuccess } := by
  rw [cnameRecords, if_neg]
  rintro ⟨ho, -⟩
  exact h (getRecords_eq_nil_iff.mp ho)

/-- The wildcards of the chain are those of the step that comes next, for after it the
    chain only goes on to names that have a CNAME of their own. -/
theorem wild_followChain_of_own (n : Nat) (chain : List RR) (wild : List Question) (qtype : Nat)
    (h : d.records q ≠ none) : (d.followChain env qtype n q chain wild).wild = wild := by
  induction n generalizing q chain with
  | zero => rfl
  | succ n ih =>
    grind [followChain, cnameRecords_of_own, rcode_resolveCNAMETarget, buildChainResult]

theorem wild_followChain_succ (n : Nat) (chain : List RR) (wild : List Question) (qtype : Nat)
    (h : (d.cnameRecords q qtype).records ≠ []) :
    (d.followChain env qtype (n + 1) q chain wild).wild =
      wild ++ (d.cnameRecords q qtype).wild := by
  grind [followChain, wild_followChain_of_own, rcode_resolveCNAMETarget, buildChainResult]

/-- A name has records. -/
def Owns (d : Resolver) (name : Name) : Prop := ∃ q l, q.name = name ∧ d.records q = some l

/-- A name that exists has no record of the queried type and no CNAME, but its wildcard
    has one, and the type is one that wildcards are used for. -/
def Borrows (d : Resolver) (q : Question) : Prop :=
  Owns d q.name ∧ q.qtype ≠ typeCNAME ∧ supportsWildcard q.qtype ∧ d.records q = none ∧
    d.records { q with qtype := typeCNAME } = none ∧
    d.records (transformToWildcard { q with qtype := typeCNAME }) ≠ none

theorem wild_lookupCNAMEChain (q : Question) (qtype : Nat) : (d.lookupCNAMEChain env q qtype).wild =
    if d.records q = none ∧ supportsWildcard qtype ∧
      d.records (transformToWildcard q) ≠ none then [transformToWildcard q] else [] := by
  rw [lookupCNAMEChain, maxDepth]
  by_cases h : d.records q = none ∧ supportsWildcard qtype ∧
      d.records (transformToWildcard q) ≠ none
  · have hw : d.getRecords (transformToWildcard q) ≠ [] := fun h' =>
      h.2.2 (getRecords_eq_nil_iff.mp h')
    have hf : d.cnameRecords q qtype = responseFromWildRecords q.name (transformToWildcard q)
        (d.getRecords (transformToWildcard q)) := by
      rw [cnameRecords, if_pos ⟨getRecords_eq_nil_iff.mpr h.1, h.2.1, hw⟩]
    rw [if_pos h, wild_followChain_succ, hf]
    · rfl
    · rw [hf]
      exact fun h' => hw (map_eq_nil_iff.mp h')
  · rw [if_neg h]
    have hf : d.cnameRecords q qtype = { records := d.getRecords q, rcode := rcodeSuccess } := by
      rw [cnameRecords, if_neg]
      rintro ⟨ho, hs, hw⟩
      exact h ⟨getRecords_eq_nil_iff.mp ho, hs, fun h' => hw (getRecords_eq_nil_iff.mpr h')⟩
    by_cases ho : d.records q = none
    · rw [followChain, hf, if_pos (getRecords_eq_nil_iff.mpr ho)]
    · exact wild_followChain_of_own _ _ _ _ ho

/-- **Wildcards for names that do not exist.**  In every set of records and zones, a query is
    answered from a wildcard only for a name without records, unless the name borrows the
    CNAME of its wildcard. -/
theorem wildcard_only_for_missing_iff (env : Env) (d : Resolver) (q : Question) :
    ((d.lookupRecords env q).1.wild ≠ [] → ¬ Owns d q.name) ↔ ¬ Borrows d q := by
  rw [lookupRecords]
  cases hr : d.records q with
  | some l =>
    refine iff_of_true (absurd rfl ·) fun h => ?_
    cases hr.symm.trans h.2.2.2.1
  | none =>
    by_cases hd : (supportsWildcard q.qtype && !d.domains q.name) = true
    · -- the name has no records, whatever the answer is
      have hm : ¬ Owns d q.name := by
        intro ho
        rw [Bool.and_eq_true, (d.owned q.name).mpr ho] at hd
        cases hd.2
      exact iff_of_true (fun _ => hm) (hm ·.1)
    grind [wild_lookupCNAMEChain, Borrows]

/-- The host has an address, but for its IPv6 address the CNAME of the wildcard is used. -/
theorem host_borrows :
    let d := update exampleEnv [⟨"example.com".toList, [hostRecord, starRecord], false⟩]
    (d.lookupRecords exampleEnv ⟨"host.example.com.".toList, typeAAAA, 1⟩).1.wild ≠ [] ∧
      Owns d "host.example.com.".toList := by
  refine ⟨by decide, ⟨⟨"host.example.com.".toList, typeA, 1⟩, _, rfl, rfl⟩⟩

/-! ## Aliases -/

/-- A result with records and wildcards before its own. -/
def LookupResult.prepend (chain : List RR) (wild : List Question) (r : LookupResult) :
    LookupResult :=
  { r with records := chain ++ r.records, wild := wild ++ r.wild }

theorem buildChainResult_prepend (c chain : List RR) (w wild : List Question)
    (target : LookupResult) : buildChainResult (c ++ chain) (w ++ wild) target =
      (buildChainResult chain wild target).prepend c w := by
  rw [buildChainResult, buildChainResult]
  split
  all_goals rw [LookupResult.prepend, append_assoc]

/-- What has been collected stands before what is found. -/
theorem followChain_prepend (n : Nat) (q : Question) (qtype : Nat) (c chain : List RR)
    (w wild : List Question) : d.followChain env qtype n q (c ++ chain) (w ++ wild) =
      (d.followChain env qtype n q chain wild).prepend c w := by
  induction n generalizing q chain wild with
  | zero => rfl
  | succ n ih =>
    rw [followChain, followChain]
    split
    · rfl
    split
    all_goals grind [LookupResult.prepend, buildChainResult_prepend]

/-- The chain of names from `t` has so many links: a link is a name with a CNAME and no
    record of the type. -/
inductive Links (env : Env) (d : Resolver) (qtype qclass : Nat) : Name → Nat → Prop
  | stop {t : Name} (h : d.records ⟨t, qtype, qclass⟩ ≠ none ∨
      d.records ⟨t, typeCNAME, qclass⟩ = none) : Links env d qtype qclass t 0
  | stuck {t : Name} (h : firstTarget (d.getRecords ⟨t, typeCNAME, qclass⟩) = none) :
      Links env d qtype qclass t 1
  | link {t target : Name} {k : Nat}
      (h : firstTarget (d.getRecords ⟨t, typeCNAME, qclass⟩) = some target)
      (hnext : Links env d qtype qclass (env.lib.toLower target) k) :
      Links env d qtype qclass t (k + 1)

/-- As many rounds as there are links are enough. -/
theorem followChain_eq_of_links (hl : Links env d qtype qclass t k)
    (hno : d.records ⟨t, qtype, qclass⟩ = none) (ho : d.records ⟨t, typeCNAME, qclass⟩ ≠ none)
    {n m : Nat} (hn : k ≤ n) (hm : k ≤ m) (chain : List RR) (wild : List Question) :
    d.followChain env qtype n ⟨t, typeCNAME, qclass⟩ chain wild =
      d.followChain env qtype m ⟨t, typeCNAME, qclass⟩ chain wild := by
  induction hl generalizing n m chain wild with
  | stop h =>
    rcases h with h | h
    · exact absurd hno h
    · exact absurd h ho
  | stuck h =>
    obtain ⟨n, rfl⟩ := Nat.exists_eq_add_of_le' hn
    obtain ⟨m, rfl⟩ := Nat.exists_eq_add_of_le' hm
    rw [followChain, followChain, cnameRecords_of_own ho]
    rw [h]
  | link h hne ih =>
    obtain ⟨n, rfl⟩ := Nat.exists_eq_add_of_le' (Nat.le_trans (Nat.le_add_left 1 _) hn)
    obtain ⟨m, rfl⟩ := Nat.exists_eq_add_of_le' (Nat.le_trans (Nat.le_add_left 1 _) hm)
    grind [followChain, cnameRecords_of_own, rcode_resolveCNAMETarget]

/-- A direct query for the name would be answered from a wildcard: it has neither a
    record of the type nor a CNAME, and its wildcard has a record of the type, which is
    for names without any records, or a CNAME. -/
def Synthesised (d : Resolver) (t : Name) (qtype qclass : Nat) : Prop :=
  d.records ⟨t, qtype, qclass⟩ = none ∧ d.records ⟨t, typeCNAME, qclass⟩ = none ∧
    supportsWildcard qtype ∧
    (d.domains t = false ∧ d.records ⟨transformDomainToWildcard t, qtype, qclass⟩ ≠ none ∨
      d.records ⟨transformDomainToWildcard t, typeCNAME, qclass⟩ ≠ none)

/-- The answer to a query of an alias is the CNAME and the answer to the query of its target. -/
def AnswersAsTarget (env : Env) (d : Resolver) (n t : Name) (rr : RR) (qtype qclass : Nat) : Prop :=
  let via := d.lookupRecords env ⟨n, qtype, qclass⟩
  let direct := d.lookupRecords env ⟨t, qtype, qclass⟩
  via.1.records = rr :: direct.1.records ∧
    via.2.determineRcode ⟨n, qtype, qclass⟩ via.1 =
      direct.2.determineRcode ⟨t, qtype, qclass⟩ direct.1

@[simp] theorem rotate_domains (q : Question) : (d.rotate q).domains = d.domains := by
  rw [Resolver.rotate]
  split <;> rfl

theorem determineRcode_of_owned (h : d.domains q.name) (r : LookupResult) :
    d.determineRcode q r = r.rcode := by
  rw [determineRcode]
  split
  · rfl
  · next hz =>
    rw [hasRecordsForDomain, h, Bool.true_or]
    exact (not_not.mp hz).symm

/-- A query for a name with a CNAME and no record of the type follows the CNAME. -/
theorem lookupRecords_of_cname (hty : qtype ≠ typeCNAME) (hn : d.records ⟨n, qtype, qclass⟩ = none)
    (ho : d.records ⟨n, typeCNAME, qclass⟩ ≠ none) : d.lookupRecords env ⟨n, qtype, qclass⟩ =
      (d.lookupCNAMEChain env ⟨n, typeCNAME, qclass⟩ qtype, d) := by
  have hd : d.domains n := domains_of_records ho
  grind [lookupRecords]

/-- The first round for an alias. -/
theorem lookupCNAMEChain_alias
    (ho : d.records ⟨n, typeCNAME, qclass⟩ = some [rr]) (hr : rr.rdata = .cname target) :
    d.lookupCNAMEChain env ⟨n, typeCNAME, qclass⟩ qtype = let t := env.lib.toLower target
      let result := d.resolveCNAMETarget env t qtype qclass
      if result.rcode = -1 then
        (d.followChain env qtype 7 ⟨t, typeCNAME, qclass⟩ [] []).prepend [rr] []
      else buildChainResult [rr] [] result := by
  have hg : d.getRecords ⟨n, typeCNAME, qclass⟩ = [rr] := by rw [getRecords, ho]; rfl
  have hn : d.records ⟨n, typeCNAME, qclass⟩ ≠ none := ho ▸ some_ne_none _
  have hf : firstTarget [rr] = some target := by
    obtain ⟨name, rrtype, cls, ttl, rdata⟩ := rr
    subst hr
    rfl
  rw [lookupCNAMEChain, maxDepth, followChain, cnameRecords_of_own hn, hg]
  rw [hf]
  dsimp only
  rw [← followChain_prepend]
  rfl

/-- The direct query for a name without records of the type and without a CNAME finds
    nothing, if it is not answered from a wildcard. -/
theorem lookupRecords_of_none (hty : qtype ≠ typeCNAME)
    (hno : d.records ⟨t, qtype, qclass⟩ = none) (hc : d.records ⟨t, typeCNAME, qclass⟩ = none)
    (hsy : ¬ Synthesised d t qtype qclass) :
    d.lookupRecords env ⟨t, qtype, qclass⟩ = ({ rcode := rcodeSuccess }, d) := by
  have hd : ¬ (supportsWildcard qtype ∧ d.domains t = false ∧
      d.records ⟨transformDomainToWildcard t, qtype, qclass⟩ ≠ none) :=
    fun h => hsy ⟨hno, hc, h.1, .inl h.2⟩
  have hch : d.lookupRecords env ⟨t, qtype, qclass⟩ =
      (d.lookupCNAMEChain env ⟨t, typeCNAME, qclass⟩ qtype, d) := by
    grind [lookupRecords, transformToWildcard]
  have hf : d.cnameRecords ⟨t, typeCNAME, qclass⟩ qtype =
      { records := [], rcode := rcodeSuccess } := by
    rw [cnameRecords, if_neg, getRecords_eq_nil_iff.mpr hc]
    rintro ⟨-, hs, hg⟩
    exact hsy ⟨hno, hc, hs, .inr fun h => hg (getRecords_eq_nil_iff.mpr h)⟩
  rw [hch, lookupCNAMEChain, maxDepth, followChain, hf]
  rfl

/-- **An alias answers as its target.**  If `n` has one CNAME, to a target in a managed zone
    with a chain of fewer than eight links, then a query for another type than CNAME is
    answered with the CNAME followed by the records, and with the code, of the direct query
    for the target, where that is not answered from a wildcard. -/
theorem alias_answers_as_target (env : Env) (d : Resolver) (n target : Name) (rr : RR)
    (qtype qclass k : Nat) (hty : qtype ≠ typeCNAME) (hno : d.records ⟨n, qtype, qclass⟩ = none)
    (hown : d.records ⟨n, typeCNAME, qclass⟩ = some [rr]) (hrr : rr.rdata = .cname target)
    (hzone : d.isInManagedZone env (env.lib.toLower target))
    (hlinks : Links env d qtype qclass (env.lib.toLower target) k) (hk : k < 8)
    (hsyn : ¬ Synthesised d (env.lib.toLower target) qtype qclass) :
    AnswersAsTarget env d n (env.lib.toLower target) rr qtype qclass := by
  have hn : d.records ⟨n, typeCNAME, qclass⟩ ≠ none := hown ▸ some_ne_none _
  have hv : d.lookupRecords env ⟨n, qtype, qclass⟩ = _ :=
    (lookupRecords_of_cname hty hno hn).trans (congrArg (·, d) (lookupCNAMEChain_alias hown hrr))
  have hdo : d.domains n := domains_of_records hn
  generalize env.lib.toLower target = t at *
  rw [AnswersAsTarget, hv]
  dsimp only
  have hco : ∀ r, d.determineRcode ⟨n, qtype, qclass⟩ r = r.rcode :=
    fun r => determineRcode_of_owned hdo r
  rw [hco]
  cases hre : d.records ⟨t, qtype, qclass⟩ with
  | some l =>
    -- the target has records of the type
    have hl : d.getRecords ⟨t, qtype, qclass⟩ = l := by rw [getRecords, hre]; rfl
    have hr : d.resolveCNAMETarget env t qtype qclass =
        { records := l, rcode := rcodeSuccess } := by
      rw [resolveCNAMETarget, hl, if_pos (d.nonempty _ l hre)]
    have hd : d.lookupRecords env ⟨t, qtype, qclass⟩ =
        ({ records := l, rcode := rcodeSuccess }, d.rotate ⟨t, qtype, qclass⟩) := by
      rw [lookupRecords, hre]
    have hdm : (d.rotate ⟨t, qtype, qclass⟩).domains t := by
      rw [rotate_domains]
      exact domains_of_records (q := ⟨t, qtype, qclass⟩) (hre ▸ some_ne_none l)
    rw [hr, hd, determineRcode_of_owned (q := ⟨t, qtype, qclass⟩) hdm]
    exact ⟨rfl, rfl⟩
  | none =>
    by_cases hcn : d.records ⟨t, typeCNAME, qclass⟩ = none
    · -- nothing there, and no wildcard for the direct query
      have hr : d.resolveCNAMETarget env t qtype qclass =
          { rcode := if d.hasRecordsForDomain t qtype then rcodeSuccess else rcodeNameError } := by
        grind [getRecords_eq_nil_iff, hasRecord, resolveCNAMETarget]
      have hs : (d.resolveCNAMETarget env t qtype qclass).rcode ≠ -1 := fun h =>
        (rcode_resolveCNAMETarget.mp h).2 hcn
      rw [if_neg hs, hr, lookupRecords_of_none hty hre hcn hsyn]
      exact ⟨rfl, rfl⟩
    · -- both go on with the CNAME of the target
      have hg : (d.resolveCNAMETarget env t qtype qclass).rcode = -1 :=
        rcode_resolveCNAMETarget.mpr ⟨hre, hcn⟩
      have hdm : d.domains t := domains_of_records hcn
      have hfu : d.followChain env qtype 7 ⟨t, typeCNAME, qclass⟩ [] [] =
          d.lookupCNAMEChain env ⟨t, typeCNAME, qclass⟩ qtype :=
        followChain_eq_of_links hlinks hre hcn (by omega) (Nat.le_of_lt hk) [] []
      rw [if_pos hg, lookupRecords_of_cname hty hre hcn, hfu]
      rw [determineRcode_of_owned (q := ⟨t, qtype, qclass⟩) hdm]
      exact ⟨rfl, rfl⟩

/-- An alias of the alias of the host. -/
def shopRecord : SimpleRecord :=
  ⟨"shop.example.com".toList, 5, "IN".toList, 300, "www.example.com.".toList⟩

/-- It answers as the alias, which has one more link. -/
theorem shop_answers_as_www :
    let d := update exampleEnv [⟨"example.com".toList, [hostRecord, wwwRecord, shopRecord], false⟩]
    AnswersAsTarget exampleEnv d "shop.example.com.".toList "www.example.com.".toList
      ⟨"shop.example.com.".toList, typeCNAME, 1, 300, .cname "www.example.com.".toList⟩ typeA
        1 := by
  refine alias_answers_as_target exampleEnv _ "shop.example.com.".toList "www.example.com.".toList
    _ typeA 1 1 (by decide) rfl rfl rfl (by decide) ?_ (by decide) ?_
  · exact .link (show _ = some "host.example.com.".toList from rfl)
      (.stop (.inl (some_ne_none _)))
  · rintro ⟨-, h, -⟩
    cases h

/-- A query for the CNAME itself is answered with it alone; the host has none. -/
theorem www_cname_alone :
    let d := update exampleEnv [⟨"example.com".toList, [hostRecord, wwwRecord], false⟩]
    d.records ⟨"www.example.com.".toList, typeCNAME, 1⟩ =
        some [⟨"www.example.com.".toList, typeCNAME, 1, 300, .cname "host.example.com.".toList⟩] ∧
      d.isInManagedZone exampleEnv "host.example.com.".toList ∧
      Links exampleEnv d typeCNAME 1 "host.example.com.".toList 0 ∧
      ¬ AnswersAsTarget exampleEnv d "www.example.com.".toList "host.example.com.".toList
        ⟨"www.example.com.".toList, typeCNAME, 1, 300, .cname "host.example.com.".toList⟩
        typeCNAME 1 := by
  refine ⟨rfl, by decide, Links.stop (.inr rfl), ?_⟩
  rintro ⟨-, hc⟩
  revert hc
  decide

end

end LocalResolver
