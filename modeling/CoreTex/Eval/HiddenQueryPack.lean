import CoreTex.EvalReport.Artifact
import CoreTex.EvalReport.Seeds
import CoreTex.Lib.JsValue
import CoreTex.Lib.Sort
import CoreTex.Replay.RigDispatch
import Mathlib.Data.Rat.Floor

/-!
# CoreTex.Eval.HiddenQueryPack

The hidden query pack of an epoch (`eval/hidden-query-pack.ts`): the strata of an event, the seed,
and the sampling that reserves the quotas first and fills up to the pack size after.

A count that the source compares with a number of a profile is compared with a `JsNum`. What the
host does with text and numbers is a `Host`; an error that is thrown is its message.
-/

namespace CoreTex.HiddenPack

open CoreTex.Lib CoreTex.EvalReport CoreTex.RigDispatch

/-! ### The host -/

/-- What the host does with text and numbers. On ASCII text `toLowerCase` only moves letters. -/
structure Host where
  toLowerCase : String → String
  stringify : JsValue → String
  numberText : JsNum → String
  toLowerCase_ascii : ∀ s : String, (∀ c ∈ s.toList, c.toNat < 128) → toLowerCase s = s.toLower

/-- `n < x`. -/
def below (n : Nat) : JsNum → Bool
  | .nan => false
  | .inf negative => !negative
  | .fin q => decide ((n : ℚ) < q)

/-- `n >= x`. -/
def atLeast (n : Nat) : JsNum → Bool
  | .nan => false
  | .inf negative => negative
  | .fin q => decide (q ≤ (n : ℚ))

/-- `codePointCompare`. -/
def codePointCompare (a b : String) : Int :=
  if utf16Units a < utf16Units b then -1 else if utf16Units b < utf16Units a then 1 else 0

/-! ### Events -/

/-- `CorpusSplit`. -/
inductive CorpusSplit
  | train_visible | calibration | eval_hidden | canary
  deriving DecidableEq, Repr

structure TruthDocument where
  id : String
  text : String
  isCurrent : Bool
  aspectTags : Option (List String)
  deriving DecidableEq

structure HardNegativeRecord where
  id : String
  text : String
  category : Option String
  aspectTags : Option (List String)
  deriving DecidableEq

structure QrelEntry where
  documentId : String
  relevance : ℚ
  deriving DecidableEq

/-- `ProductionCorpusEvent`: what selection reads, and the contents a reader scores. -/
structure ProductionCorpusEvent where
  id : String
  family : String
  split : CorpusSplit
  queryText : String
  truthDocuments : List TruthDocument
  hardNegatives : List HardNegativeRecord
  qrels : List QrelEntry
  scope : JsValue
  publicIntent : JsValue
  ownerEntityId : JsValue
  subjectEntityId : JsValue
  causalDepth : Option ℚ
  relationHopDepth : Option ℚ
  band : Option String
  logicalFamily : Option String

structure ProductionCorpus where
  events : List ProductionCorpusEvent
  corpusRoot : String

structure PackQuota where
  stratum : String
  minCount : JsNum
  deriving DecidableEq

structure HiddenPackProfile where
  packSize : JsNum
  quotas : List PackQuota
  disabledFamilies : Option (List String)
  disabledSubstrateSurfaces : Option (List String)

structure QueryPack where
  epochId : JsNum
  evalSeedHex : String
  corpusRoot : String
  events : List ProductionCorpusEvent

/-! ### Strata -/

/-- The hardest negative qrel, above what is found so far. -/
def maxNegative (truthIds : List String) : ℚ → List QrelEntry → ℚ
  | maxNeg, [] => maxNeg
  | maxNeg, q :: qrels =>
    if truthIds.contains q.documentId then maxNegative truthIds maxNeg qrels
    else if 1 / 2 ≤ q.relevance then maxNegative truthIds maxNeg qrels
    else if maxNeg < q.relevance then maxNegative truthIds q.relevance qrels
    else maxNegative truthIds maxNeg qrels

/-- `hardnessBucketFor`. No double lies between a bound and the double nearest to it. -/
def hardnessBucketFor (event : ProductionCorpusEvent) : String :=
  let maxNeg := maxNegative (event.truthDocuments.map TruthDocument.id) 0 event.qrels
  if 2 / 5 ≤ maxNeg then "hard" else if 1 / 5 ≤ maxNeg then "medium" else "easy"

/-- The whole numbers from 2 up to a depth. -/
def depthsUpTo (depth : ℚ) : List Nat :=
  (List.range (⌊depth⌋.toNat + 1)).filter fun d => 2 ≤ d

/-- `strataOf`. -/
def strataOf (event : ProductionCorpusEvent) : List String :=
  let bucket := hardnessBucketFor event
  let family := event.family
  let depths := depthsUpTo (event.causalDepth.getD 1)
  let hops := depthsUpTo (event.relationHopDepth.getD 1)
  let base := [s!"family={family}", s!"bucket={bucket}", s!"family={family},bucket={bucket}"]
  -- an empty band is no band
  let band :=
    match event.band.filter (· ≠ "") with
    | some band => [s!"band={band}", s!"family={family},band={band}"]
    | none => []
  base ++ band ++ depths.map (fun d => s!"depth>={d}") ++
    depths.map (fun d => s!"family={family},depth>={d}") ++
    hops.map (fun d => s!"relationHop>={d}") ++
    hops.map (fun d => s!"family={family},relationHop>={d}")

def eventSatisfiesStratum (event : ProductionCorpusEvent) (stratum : String) : Bool :=
  (strataOf event).contains stratum

/-- The events of a pack in a stratum. -/
def stratumCount (events : List ProductionCorpusEvent) (stratum : String) : Nat :=
  (events.filter fun e => eventSatisfiesStratum e stratum).length

/-- `logicalFamily ?? family`: a family is always there. -/
def familyOf (event : ProductionCorpusEvent) : String :=
  event.logicalFamily.getD event.family

def hiddenPackEventEligible (event : ProductionCorpusEvent) (profile : HiddenPackProfile) : Bool :=
  if event.split ≠ .eval_hidden then false
  else
    let disabled := profile.disabledFamilies.getD [] ++ profile.disabledSubstrateSurfaces.getD []
    !disabled.contains (familyOf event)

/-! ### The seed -/

/-- The text after a `0x`. -/
def clean (evalSeedHex : String) : List Char :=
  match evalSeedHex.toList with
  | '0' :: 'x' :: rest => rest
  | cs => cs

def evalSeedBytes (evalSeedHex : String) : Except String Bytes :=
  let clean := utf16 (clean evalSeedHex)
  if clean.length ≠ 64 then
    throw ("evalSeed must be 32 bytes (got " ++ halfText clean.length ++ ")")
  else pure (hexPairs clean)

/-- `u64BE` of a number: `BigInt` takes whole numbers only. -/
def epochBytes (H : Host) : JsNum → Except String Bytes
  | .fin q =>
    if q.den = 1 then pure (u64BE q.num)
    else throw ("The number " ++ H.numberText (.fin q) ++
      " cannot be converted to a BigInt because it is not an integer")
  | n => throw ("The number " ++ H.numberText n ++
      " cannot be converted to a BigInt because it is not an integer")

/-- The seed as a pack shows it. -/
def publishedSeed (H : Host) (evalSeedHex : String) : String :=
  let lower := H.toLowerCase evalSeedHex
  match lower.toList with
  | '0' :: 'x' :: _ => lower
  | _ => "0x" ++ lower

/-! ### Sampling -/

section Sampling

variable (H : Host) (keccak256 : Bytes → Digest) (S : CompareSort)

/-- `digestU256`. -/
def digestU256 (parts : Bytes) : Nat :=
  readBE (keccak256 parts).bytes

/-- The event a number falls on. -/
def candidate (sorted : List ProductionCorpusEvent) (h : 0 < sorted.length) (n : Nat) :
    ProductionCorpusEvent :=
  sorted.get ⟨n % sorted.length, Nat.mod_lt n h⟩

def hasId (events : List ProductionCorpusEvent) (id : String) : Bool :=
  events.any fun e => e.id = id

/-- The draws for one quota: `left` more, from draw `j` on. -/
def reserveQuota (packSize : JsNum) (quota : PackQuota) (draw : Nat → ProductionCorpusEvent) :
    Nat → Nat → List ProductionCorpusEvent → List ProductionCorpusEvent
  | 0, _, pack => pack
  | left + 1, j, pack =>
    if below (stratumCount pack quota.stratum) quota.minCount then
      let cand := draw j
      if hasId pack cand.id then reserveQuota packSize quota draw left (j + 1) pack
      else if !eventSatisfiesStratum cand quota.stratum then
        reserveQuota packSize quota draw left (j + 1) pack
      else if atLeast pack.length packSize then pack
      else reserveQuota packSize quota draw left (j + 1) (pack ++ [cand])
    else pack

/-- Every quota in its turn. -/
def reserveQuotas (packSize : JsNum) (draws : Nat)
    (draw : PackQuota → Nat → ProductionCorpusEvent) :
    List PackQuota → List ProductionCorpusEvent → Except String (List ProductionCorpusEvent)
  | [], pack => pure pack
  | quota :: quotas, pack =>
    let pack := reserveQuota packSize quota (draw quota) draws 0 pack
    let got := stratumCount pack quota.stratum
    if below got quota.minCount then
      throw ("deriveQueryPack: stratum " ++ quota.stratum ++ " cannot meet quota " ++
        H.numberText quota.minCount ++ " (got " ++ toString got ++
        "; eval_hidden too small or quotas sum > packSize)")
    else reserveQuotas packSize draws draw quotas pack

/-- The free draws: `left` more, from draw `i` on. -/
def fillPack (packSize : JsNum) (draw : Nat → ProductionCorpusEvent) :
    Nat → Nat → List ProductionCorpusEvent → List ProductionCorpusEvent
  | 0, _, pack => pack
  | left + 1, i, pack =>
    if below pack.length packSize then
      let cand := draw i
      if hasId pack cand.id then fillPack packSize draw left (i + 1) pack
      else fillPack packSize draw left (i + 1) (pack ++ [cand])
    else pack

/-- The events that a seed and an epoch select. -/
def sampleEvents (seed epochBE : Bytes) (sorted : List ProductionCorpusEvent)
    (profile : HiddenPackProfile) : Except String (List ProductionCorpusEvent) :=
  if h : 0 < sorted.length then do
    let quotaDraw (quota : PackQuota) (j : Nat) := candidate sorted h (digestU256 keccak256
      (seed ++ epochBE ++ encodeUtf8 ("quota:" ++ quota.stratum) ++ u64BE j))
    let freeDraw (i : Nat) := candidate sorted h (digestU256 keccak256 (seed ++ epochBE ++ u64BE i))
    let reserved ← reserveQuotas H profile.packSize (sorted.length * 8) quotaDraw profile.quotas []
    let pack := fillPack profile.packSize freeDraw (sorted.length * 8) 0 reserved
    if profile.packSize ≠ .fin pack.length then
      throw ("deriveQueryPack: cannot fill exact packSize " ++ H.numberText profile.packSize ++
        " (got " ++ toString pack.length ++ "; eval_hidden unique records exhausted)")
    else pure pack
  else throw "deriveQueryPack: corpus has no eval_hidden records"

/-- `deriveQueryPack`. -/
def deriveQueryPack (epochId : JsNum) (evalSeedHex : String) (corpus : ProductionCorpus)
    (profile : HiddenPackProfile) : Except String QueryPack := do
  let seed ← evalSeedBytes evalSeedHex
  let epochBE ← epochBytes H epochId
  let sorted := S.sort (fun a b => codePointCompare a.id b.id)
    (corpus.events.filter fun e => hiddenPackEventEligible e profile)
  let pack ← sampleEvents H keccak256 seed epochBE sorted profile
  return ⟨epochId, publishedSeed H evalSeedHex, corpus.corpusRoot, pack⟩

end Sampling

/-! ### What is sampled is in the corpus -/

section Members

variable {P : ProductionCorpusEvent → Prop}

theorem candidate_mem (sorted : List ProductionCorpusEvent) (h : 0 < sorted.length) (n : Nat) :
    candidate sorted h n ∈ sorted :=
  List.get_mem sorted _

theorem forall_mem_concat {pack : List ProductionCorpusEvent} {cand : ProductionCorpusEvent}
    (hpack : ∀ e ∈ pack, P e) (hcand : P cand) : ∀ e ∈ pack ++ [cand], P e := by
  intro e he
  rcases List.mem_append.mp he with he | he
  · exact hpack e he
  · exact List.mem_singleton.mp he ▸ hcand

theorem reserveQuota_forall {packSize : JsNum} {quota : PackQuota}
    {draw : Nat → ProductionCorpusEvent} (hdraw : ∀ j, P (draw j)) (left j : Nat)
    {pack : List ProductionCorpusEvent} (hpack : ∀ e ∈ pack, P e) :
    ∀ e ∈ reserveQuota packSize quota draw left j pack, P e := by
  induction left generalizing j pack with
  | zero => exact hpack
  | succ left ih =>
      rw [reserveQuota]
      split
      · dsimp only
        split
        · exact ih (j + 1) hpack
        · split
          · exact ih (j + 1) hpack
          · split
            · exact hpack
            · exact ih (j + 1) (forall_mem_concat hpack (hdraw j))
      · exact hpack

theorem reserveQuotas_forall {H : Host} {packSize : JsNum} {draws : Nat}
    {draw : PackQuota → Nat → ProductionCorpusEvent} (hdraw : ∀ quota j, P (draw quota j))
    {quotas : List PackQuota} {pack reserved : List ProductionCorpusEvent}
    (hpack : ∀ e ∈ pack, P e)
    (hok : reserveQuotas H packSize draws draw quotas pack = .ok reserved) :
    ∀ e ∈ reserved, P e := by
  induction quotas generalizing pack with
  | nil =>
      rw [reserveQuotas, pure_eq_ok] at hok
      exact hok ▸ hpack
  | cons quota quotas ih =>
      rw [reserveQuotas] at hok
      split at hok
      · cases hok
      · exact ih (reserveQuota_forall (hdraw quota) draws 0 hpack) hok

theorem fillPack_forall {packSize : JsNum} {draw : Nat → ProductionCorpusEvent}
    (hdraw : ∀ i, P (draw i)) (left i : Nat) {pack : List ProductionCorpusEvent}
    (hpack : ∀ e ∈ pack, P e) : ∀ e ∈ fillPack packSize draw left i pack, P e := by
  induction left generalizing i pack with
  | zero => exact hpack
  | succ left ih =>
      rw [fillPack]
      split
      · dsimp only
        split
        · exact ih (i + 1) hpack
        · exact ih (i + 1) (forall_mem_concat hpack (hdraw i))
      · exact hpack

theorem sampleEvents_subset {H : Host} {keccak256 : Bytes → Digest} {seed epochBE : Bytes}
    {sorted pack : List ProductionCorpusEvent} {profile : HiddenPackProfile}
    (hok : sampleEvents H keccak256 seed epochBE sorted profile = .ok pack) :
    ∀ e ∈ pack, e ∈ sorted := by
  rw [sampleEvents] at hok
  split at hok
  next h =>
    obtain ⟨reserved, hreserved, hok⟩ := bind_eq_ok.mp hok
    dsimp only at hok
    split at hok
    · cases hok
    · cases hok
      have hres : ∀ e ∈ reserved, e ∈ sorted :=
        reserveQuotas_forall (fun _ _ => candidate_mem sorted h _)
          (fun _ he => absurd he List.not_mem_nil) hreserved
      exact fillPack_forall (fun _ => candidate_mem sorted h _) _ _ hres
  next => cases hok

end Members

section Derive

variable {H : Host} {keccak256 : Bytes → Digest} {S : CompareSort} {epochId : JsNum}
  {evalSeedHex : String} {corpus : ProductionCorpus} {profile : HiddenPackProfile}

/-- What a derived pack shows, and which events it takes. -/
theorem deriveQueryPack_ok {pack : QueryPack}
    (hok : deriveQueryPack H keccak256 S epochId evalSeedHex corpus profile = .ok pack) :
    pack.epochId = epochId ∧ pack.evalSeedHex = publishedSeed H evalSeedHex ∧
      pack.corpusRoot = corpus.corpusRoot ∧ ∀ e ∈ pack.events, e ∈ corpus.events := by
  rw [deriveQueryPack] at hok
  obtain ⟨seed, -, hok⟩ := bind_eq_ok.mp hok
  obtain ⟨epochBE, -, hok⟩ := bind_eq_ok.mp hok
  obtain ⟨events, hevents, hok⟩ := bind_eq_ok.mp hok
  cases hok
  refine ⟨rfl, rfl, rfl, fun e he => ?_⟩
  have hsorted := sampleEvents_subset hevents e he
  exact List.mem_of_mem_filter ((S.mem_sort _).mp hsorted)

/-- A pack is selected by the bytes of the seed, however they are written. -/
theorem deriveQueryPack_of_seed {pack : QueryPack} {seedHex : String}
    (hseed : evalSeedBytes seedHex = evalSeedBytes evalSeedHex)
    (hok : deriveQueryPack H keccak256 S epochId evalSeedHex corpus profile = .ok pack) :
    deriveQueryPack H keccak256 S epochId seedHex corpus profile =
      .ok { pack with evalSeedHex := publishedSeed H seedHex } := by
  rw [deriveQueryPack] at hok
  obtain ⟨seed, hread, hok⟩ := bind_eq_ok.mp hok
  obtain ⟨epochBE, hepoch, hok⟩ := bind_eq_ok.mp hok
  obtain ⟨events, hevents, hok⟩ := bind_eq_ok.mp hok
  cases hok
  rw [deriveQueryPack, hseed, hread, ok_bind, hepoch, ok_bind]
  dsimp only
  rw [hevents, ok_bind]
  rfl

theorem evalSeedBytes_of_derive {pack : QueryPack}
    (hok : deriveQueryPack H keccak256 S epochId evalSeedHex corpus profile = .ok pack) :
    ∃ seed, evalSeedBytes evalSeedHex = .ok seed :=
  ⟨_, (bind_eq_ok.mp hok).choose_spec.1⟩

end Derive

end CoreTex.HiddenPack
