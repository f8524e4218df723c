import CoreTex.Hash.Keccak256
import CoreTex.Replay.RigText

/-!
# CoreTex.Replay.RigAgreement

The logs on which the TypeScript and the Python rig decoders agree.

`TsAdvance` and `PyAdvance` are what each decoder takes for an advance, `PlainAdvance` the form that
both read alike, and likewise for finalizations. The decoders agree on a log exactly when it is
plain or neither takes it (`rigDecoders_agree_iff`).
-/

namespace CoreTex.RigDispatch

open CoreTex.Lib

/-! ### What each decoder accepts -/

/-- A topic is there and satisfies `P`. -/
def TopicIs (log : RpcLog) (index : Nat) (P : String → Prop) : Prop :=
  ∃ text, log.topics[index]? = some text ∧ P text

/-- What `topicNum` takes: text that `BigInt` takes. -/
def BigIntText (text : String) : Prop :=
  text ≠ "" ∧ (bigInt text).isSome = true

/-- What `_topic_uint` takes for a `uint64`. -/
def Uint64Text (text : String) : Prop :=
  ∃ bytes, PyHex text bytes ∧ bytes.length = 32 ∧ readBE bytes < 2 ^ 64

/-- What `_topic_address` takes. -/
def PyAddressText (text : String) : Prop :=
  ∃ bytes, PyHex text bytes ∧ bytes.length = 32 ∧ bytes.take 12 = List.replicate 12 0

/-- What `topicAddress` takes. -/
def PlainAddress (text : String) : Prop :=
  IsAddressWord (after0x text.toList)

/-- What the TypeScript decoder takes for an advance. -/
structure TsAdvance (log : RpcLog) : Prop where
  topics : log.topics.length = 4
  epoch : TopicIs log 1 BigIntText
  transitionIndex : TopicIs log 2 BigIntText
  miner : TopicIs log 3 PlainAddress
  data : ∃ data, hexToBytes log.data = .ok data ∧ AdvanceData data 288 ∧
    tailLength data 288 ≤ maxSafeInteger

/-- What the Python decoder takes for an advance. -/
structure PyAdvance (log : RpcLog) : Prop where
  epoch : TopicIs log 1 Uint64Text
  transitionIndex : TopicIs log 2 Uint64Text
  miner : TopicIs log 3 PyAddressText
  data : ∃ data offset, PyHex log.data data ∧ data.length % 32 = 0 ∧ TailOffset offset ∧
    AdvanceData data offset

/-- An advance in the plain form, which both hosts read alike. -/
structure PlainAdvance (log : RpcLog) : Prop where
  topics : log.topics.length = 4
  epoch : TopicIs log 1 PlainNumber
  transitionIndex : TopicIs log 2 PlainNumber
  miner : TopicIs log 3 PlainAddress
  data : ∃ data, PlainHex log.data data ∧ AdvanceData data 288 ∧
    tailLength data 288 ≤ maxSafeInteger

/-- What the TypeScript decoder takes for a finalization. -/
structure TsFinalized (log : RpcLog) : Prop where
  topics : log.topics.length = 2
  epoch : TopicIs log 1 BigIntText
  data : ∃ data, hexToBytes log.data = .ok data ∧ data.length = 6 * 32

/-- What the Python decoder takes for a finalization. -/
structure PyFinalized (log : RpcLog) : Prop where
  epoch : TopicIs log 1 Uint64Text
  data : ∃ data, PyHex log.data data ∧ data.length % 32 = 0 ∧ 6 * 32 ≤ data.length

/-- A finalization in the plain form. -/
structure PlainFinalized (log : RpcLog) : Prop where
  topics : log.topics.length = 2
  epoch : TopicIs log 1 PlainNumber
  data : ∃ data, PlainHex log.data data ∧ data.length = 6 * 32

/-! ### Equal fields -/

/-- The fields of an advance are equal in both hosts. -/
structure SameAdvance (ts : RigStateAdvancedEvent) (py : Join.StateAdvanced) : Prop where
  epoch : ts.epoch = (py.epoch : Int)
  transitionIndex : ts.transitionIndex = (py.transitionIndex : Int)
  miner : codes ts.miner.toList = py.miner
  parentStateRoot : SameHex ts.parentStateRoot py.parentStateRoot
  newStateRoot : SameHex ts.newStateRoot py.newStateRoot
  patchHash : SameHex ts.patchHash py.patchHash
  evalReportHash : SameHex ts.evalReportHash py.evalReportHash
  coreVersionHash : SameHex ts.coreVersionHash py.coreVersionHash
  epochContextRoot : SameHex ts.epochContextRoot py.epochContextRoot
  improvementCredits : ts.improvementCredits = py.improvementCredits
  transitionFormatVersion : ts.transitionFormatVersion = py.transitionFormatVersion
  compactPatchBytes : ts.compactPatchBytes = py.compactPatchBytes

/-- The fields of a finalization are equal in both hosts. -/
structure SameFinalized (ts : RigEpochFinalizedEvent) (py : EpochFinalized) : Prop where
  epoch : ts.epoch = (py.epoch : Int)
  parentStateRoot : SameHex ts.parentStateRoot py.parentStateRoot
  finalStateRoot : SameHex ts.finalStateRoot py.finalStateRoot
  coreVersionHash : SameHex ts.coreVersionHash py.coreVersionHash
  epochContextRoot : SameHex ts.epochContextRoot py.epochContextRoot
  patchSetRoot : SameHex ts.patchSetRoot py.patchSetRoot
  scoreRoot : SameHex ts.scoreRoot py.scoreRoot

/-- Both refuse, or both accept with equal fields. -/
def Agree {ε ε' α β : Type} (Same : α → β → Prop) (ts : Except ε (Option α)) (py : Except ε' β) :
    Prop :=
  (∃ e, ts = .error e) ∧ (∃ e, py = .error e) ∨ ∃ a b, ts = .ok (some a) ∧ py = .ok b ∧ Same a b

theorem agree_iff {ε ε' α β : Type} {Same : α → β → Prop} {ts : Except ε (Option α)}
    {py : Except ε' β} {plain tsReads pyReads : Prop} (hnone : ts ≠ .ok none)
    (hts : (∃ a, ts = .ok (some a)) ↔ tsReads) (hpy : (∃ b, py = .ok b) ↔ pyReads)
    (hplain : plain → ∃ a b, ts = .ok (some a) ∧ py = .ok b ∧ Same a b)
    (hsame : ∀ {a b}, ts = .ok (some a) → py = .ok b → Same a b → plain) :
    Agree Same ts py ↔ plain ∨ ¬ tsReads ∧ ¬ pyReads := by
  constructor
  · rintro (⟨⟨e, he⟩, e', he'⟩ | ⟨a, b, ha, hb, hab⟩)
    · refine .inr ⟨fun h => ?_, fun h => ?_⟩
      · obtain ⟨a, ha⟩ := hts.mpr h
        rw [he] at ha
        cases ha
      · obtain ⟨b, hb⟩ := hpy.mpr h
        rw [he'] at hb
        cases hb
    · exact .inl (hsame ha hb hab)
  · rintro (h | ⟨htsn, hpyn⟩)
    · exact .inr (hplain h)
    · refine .inl ⟨?_, ?_⟩
      · cases ts with
        | error e => exact ⟨e, rfl⟩
        | ok o =>
            cases o with
            | none => exact absurd rfl hnone
            | some a => exact absurd (hts.mp ⟨a, rfl⟩) htsn
      · cases py with
        | error e => exact ⟨e, rfl⟩
        | ok b => exact absurd (hpy.mp ⟨b, rfl⟩) hpyn

section Agreement

variable {keccak256 : Bytes → Digest} {log : RpcLog} {provenance : Join.LogProvenance}

/-- The event of data whose payload is at 288. -/
def tsAdvance (data : Bytes) (epoch transitionIndex : Int) (miner : String) :
    RigStateAdvancedEvent where
  epoch := epoch
  transitionIndex := transitionIndex
  miner := miner
  parentStateRoot := bytesToHex (slot data 0)
  newStateRoot := bytesToHex (slot data 1)
  patchHash := bytesToHex (slot data 2)
  evalReportHash := bytesToHex (slot data 3)
  coreVersionHash := bytesToHex (slot data 4)
  epochContextRoot := bytesToHex (slot data 5)
  improvementCredits := readBE (slot data 6)
  transitionFormatVersion := readBE (slot data 7)
  compactPatchBytes := (data.drop (288 + 32)).take (tailLength data 288)

/-- The record of data whose payload is at `offset`. -/
def pyAdvance (data : Bytes) (offset epoch transitionIndex : Nat) (miner : PyStr)
    (provenance : Join.LogProvenance) : Join.StateAdvanced where
  epoch := epoch
  transitionIndex := transitionIndex
  miner := miner
  parentStateRoot := hexText (slot data 0)
  newStateRoot := hexText (slot data 1)
  patchHash := hexText (slot data 2)
  evalReportHash := hexText (slot data 3)
  coreVersionHash := hexText (slot data 4)
  epochContextRoot := hexText (slot data 5)
  improvementCredits := readBE (slot data 6)
  transitionFormatVersion := readBE (slot data 7)
  compactPatchBytes := (data.drop (offset + 32)).take (tailLength data offset)
  provenance := provenance

theorem decodeRigStateAdvanced_eq_ok
    (h : (log.topics[0]?.getD "").toLower = eventTopic keccak256 sigStateAdvanced)
    {ev : RigStateAdvancedEvent} :
    decodeRigStateAdvanced keccak256 log = .ok (some ev) ↔
      ∃ data epoch transitionIndex miner, log.topics.length = 4 ∧
        hexToBytes log.data = .ok data ∧ AdvanceData data 288 ∧
        tailLength data 288 ≤ maxSafeInteger ∧ topicNum log 1 = .ok epoch ∧
        topicNum log 2 = .ok transitionIndex ∧ topicAddress log 3 = .ok miner ∧
        tsAdvance data epoch transitionIndex miner = ev := by
  rw [decodeRigStateAdvanced, if_neg (not_not.mpr h)]
  simp only [bind_eq_ok, refuseIf_eq_ok, exists_const, word_eq_ok, wordNum_eq_ok, pure_eq_ok,
    not_not]
  constructor
  · rintro ⟨htopics, data, hdata, offset, ⟨-, hword⟩, hoffset, length, ⟨hend, rfl⟩, hsafe, htail,
      version, ⟨-, rfl⟩, hwide, epoch, hepoch, index, hindex, miner, hminer, _, ⟨-, rfl⟩,
      _, ⟨-, rfl⟩, _, ⟨-, rfl⟩, _, ⟨-, rfl⟩, _, ⟨-, rfl⟩, _, ⟨-, rfl⟩, _, ⟨-, rfl⟩, hev⟩
    subst hoffset
    rw [not_or, not_not] at htail
    obtain ⟨hlength, hpad⟩ := htail
    have hdata' : AdvanceData data 288 := by
      refine ⟨hword, by omega, hlength.symm, fun b hb => ?_⟩
      by_contra hne
      exact hpad ⟨b, hb, hne⟩
    exact ⟨data, epoch, index, miner, htopics, hdata, hdata', Nat.not_lt.mp hsafe, hepoch, hindex,
      hminer, Option.some.inj hev⟩
  · rintro ⟨data, epoch, index, miner, htopics, hdata, hadvance, hsafe, hepoch, hindex, hminer, rfl⟩
    have hlen := hadvance.length
    have hversion := hadvance.version
    refine ⟨htopics, data, hdata, 288, ⟨by omega, hadvance.offset_word⟩, by decide, _,
      ⟨by omega, rfl⟩, Nat.not_lt.mpr hsafe, ?_, _, ⟨by omega, rfl⟩, by omega, epoch, hepoch, index,
      hindex, miner, hminer, _, ⟨by omega, rfl⟩, _, ⟨by omega, rfl⟩, _, ⟨by omega, rfl⟩, _,
      ⟨by omega, rfl⟩, _, ⟨by omega, rfl⟩, _, ⟨by omega, rfl⟩, _, ⟨by omega, rfl⟩, rfl⟩
    rw [not_or, not_not]
    refine ⟨hadvance.length.symm, ?_⟩
    rintro ⟨b, hb, hne⟩
    exact hne (hadvance.padding b hb)

theorem decodeStateAdvanced_of_topic0
    (h : requireTopic0 log (pyEventTopic keccak256 sigStateAdvanced) "CoreTexStateAdvanced" =
      .ok ()) {ev : Join.StateAdvanced} :
    decodeStateAdvanced keccak256 log provenance = .ok ev ↔
      ∃ data offset epoch transitionIndex miner, PyHex log.data data ∧ data.length % 32 = 0 ∧
        TailOffset offset ∧ AdvanceData data offset ∧ topicUint log 1 "epoch" 64 = .ok epoch ∧
        topicUint log 2 "transitionIndex" 64 = .ok transitionIndex ∧
        pyTopicAddress log 3 "miner" = .ok miner ∧
        pyAdvance data offset epoch transitionIndex miner provenance = ev := by
  rw [decodeStateAdvanced, h, ok_bind]
  simp only [bind_eq_ok, pyWord_eq_ok, wordUint_eq_ok, pure_eq_ok, logData_eq_ok]
  constructor
  · rintro ⟨data, ⟨hdata, hwords⟩, patch, hpatch, epoch, hepoch, index, hindex, miner, hminer,
      _, ⟨-, rfl⟩, _, ⟨-, rfl⟩, _, ⟨-, rfl⟩, _, ⟨-, rfl⟩, _, ⟨-, rfl⟩, _, ⟨-, rfl⟩, _, ⟨-, -, rfl⟩,
      _, ⟨-, hversion, rfl⟩, hev⟩
    obtain ⟨offset, hoffset, hword, hlength, hpad, rfl⟩ := (tailBytes_eq_ok hwords).mp hpatch
    exact ⟨data, offset, epoch, index, miner, hdata, hwords, hoffset,
      ⟨hword, hversion, hlength, hpad⟩, hepoch, hindex, hminer, hev⟩
  · rintro ⟨data, offset, epoch, index, miner, hdata, hwords, hoffset, hadvance, hepoch, hindex,
      hminer, rfl⟩
    have hlen := hadvance.length
    have hhead := hoffset.1
    have hcredits : readBE (slot data 6) < 2 ^ 256 := by
      have hlt := readBE_lt (slot data 6)
      have hslot : (slot data 6).length = 32 := by
        rw [slot, List.length_take, List.length_drop]
        omega
      rw [hslot] at hlt
      exact hlt
    exact ⟨data, ⟨hdata, hwords⟩, _, (tailBytes_eq_ok hwords).mpr ⟨offset, hoffset,
      hadvance.offset_word, hadvance.length, hadvance.padding, rfl⟩, epoch, hepoch, index, hindex,
      miner, hminer, _, ⟨by omega, rfl⟩, _, ⟨by omega, rfl⟩, _, ⟨by omega, rfl⟩, _,
      ⟨by omega, rfl⟩, _, ⟨by omega, rfl⟩, _, ⟨by omega, rfl⟩, _, ⟨by omega, hcredits, rfl⟩, _,
      ⟨by omega, hadvance.version, rfl⟩, rfl⟩

theorem decodeStateAdvanced_eq_ok
    (h : (log.topics[0]?.getD "").toLower = eventTopic keccak256 sigStateAdvanced)
    {ev : Join.StateAdvanced} :
    decodeStateAdvanced keccak256 log provenance = .ok ev ↔
      ∃ data offset epoch transitionIndex miner, PyHex log.data data ∧ data.length % 32 = 0 ∧
        TailOffset offset ∧ AdvanceData data offset ∧ topicUint log 1 "epoch" 64 = .ok epoch ∧
        topicUint log 2 "transitionIndex" 64 = .ok transitionIndex ∧
        pyTopicAddress log 3 "miner" = .ok miner ∧
        pyAdvance data offset epoch transitionIndex miner provenance = ev := by
  exact decodeStateAdvanced_of_topic0 (requireTopic0_of_topic h)

/-! ### Numbers and addresses of both hosts -/

theorem TopicIs.reads_number {index : Nat} (h : TopicIs log index PlainNumber) :
    ∃ n : Nat, topicNum log index = .ok (n : Int) ∧
      ∀ field, topicUint log index field 64 = .ok n := by
  obtain ⟨text, htext, hplain⟩ := h
  obtain ⟨bytes, hhex, hlen, hlt, hne, hbig⟩ := hplain.reads
  exact ⟨readBE bytes, topicNum_eq_ok.mpr ⟨text, htext, hne, hbig⟩, fun field =>
    topicUint_eq_ok.mpr ⟨text, bytes, htext, hhex, hlen, hlt, rfl⟩⟩

theorem plainNumber_of_reads {index n : Nat} {field : String}
    (hts : topicNum log index = .ok (n : Int)) (hpy : topicUint log index field 64 = .ok n) :
    TopicIs log index PlainNumber := by
  obtain ⟨text, htext, -, hbig⟩ := topicNum_eq_ok.mp hts
  obtain ⟨text', bytes, htext', hhex, hlen, hlt, rfl⟩ := topicUint_eq_ok.mp hpy
  obtain rfl := Option.some.inj (htext.symm.trans htext')
  exact ⟨text, htext, .of_reads hhex hlen hlt hbig⟩

theorem TopicIs.reads_address {index : Nat} (h : TopicIs log index PlainAddress) :
    ∃ ts py, topicAddress log index = .ok ts ∧
      (∀ field, pyTopicAddress log index field = .ok py) ∧ codes ts.toList = py := by
  obtain ⟨text, htext, hplain⟩ := h
  obtain ⟨bytes, hhex, hlen, hzeros, hcodes⟩ := IsAddressWord.reads hplain
  refine ⟨_, _, topicAddress_eq_ok.mpr ⟨?_, rfl⟩, fun field =>
    pyTopicAddress_eq_ok.mpr ⟨text, bytes, htext, hhex, hlen, hzeros, rfl⟩, ?_⟩
  · rw [htext]
    exact hplain
  · rw [htext]
    exact hcodes

theorem plainAddress_of_reads {index : Nat} {ts : String} {py : PyStr} {field : String}
    (hts : topicAddress log index = .ok ts) (hpy : pyTopicAddress log index field = .ok py) :
    TopicIs log index PlainAddress := by
  obtain ⟨hword, -⟩ := topicAddress_eq_ok.mp hts
  obtain ⟨text, bytes, htext, -⟩ := pyTopicAddress_eq_ok.mp hpy
  rw [htext] at hword
  exact ⟨text, htext, hword⟩

theorem topicNum_isOk {index : Nat} :
    (∃ n, topicNum log index = .ok n) ↔ TopicIs log index BigIntText := by
  constructor
  · rintro ⟨n, hn⟩
    obtain ⟨text, htext, hne, hbig⟩ := topicNum_eq_ok.mp hn
    exact ⟨text, htext, hne, by rw [hbig]; rfl⟩
  · rintro ⟨text, htext, hne, hbig⟩
    obtain ⟨n, hn⟩ := Option.isSome_iff_exists.mp hbig
    exact ⟨n, topicNum_eq_ok.mpr ⟨text, htext, hne, hn⟩⟩

theorem topicUint_isOk {index : Nat} {field : String} :
    (∃ n, topicUint log index field 64 = .ok n) ↔ TopicIs log index Uint64Text := by
  constructor
  · rintro ⟨n, hn⟩
    obtain ⟨text, bytes, htext, hhex, hlen, hlt, -⟩ := topicUint_eq_ok.mp hn
    exact ⟨text, htext, bytes, hhex, hlen, hlt⟩
  · rintro ⟨text, htext, bytes, hhex, hlen, hlt⟩
    exact ⟨_, topicUint_eq_ok.mpr ⟨text, bytes, htext, hhex, hlen, hlt, rfl⟩⟩

theorem pyTopicAddress_isOk {index : Nat} {field : String} :
    (∃ address, pyTopicAddress log index field = .ok address) ↔
      TopicIs log index PyAddressText := by
  constructor
  · rintro ⟨address, h⟩
    obtain ⟨text, bytes, htext, hhex, hlen, hzeros, -⟩ := pyTopicAddress_eq_ok.mp h
    exact ⟨text, htext, bytes, hhex, hlen, hzeros⟩
  · rintro ⟨text, htext, bytes, hhex, hlen, hzeros⟩
    exact ⟨_, pyTopicAddress_eq_ok.mpr ⟨text, bytes, htext, hhex, hlen, hzeros, rfl⟩⟩

theorem topicAddress_isOk {index : Nat} (hindex : index < log.topics.length) :
    (∃ address, topicAddress log index = .ok address) ↔ TopicIs log index PlainAddress := by
  have htext : log.topics[index]? = some log.topics[index] := List.getElem?_eq_getElem hindex
  constructor
  · rintro ⟨address, h⟩
    obtain ⟨hword, -⟩ := topicAddress_eq_ok.mp h
    rw [htext] at hword
    exact ⟨_, htext, hword⟩
  · intro h
    obtain ⟨ts, py, hts, -⟩ := h.reads_address
    exact ⟨ts, hts⟩

/-! ### Advances -/

section Advance

variable (htopic : (log.topics[0]?.getD "").toLower = eventTopic keccak256 sigStateAdvanced)
include htopic

theorem decodeRigStateAdvanced_isOk :
    (∃ ev, decodeRigStateAdvanced keccak256 log = .ok (some ev)) ↔ TsAdvance log := by
  constructor
  · rintro ⟨ev, hev⟩
    obtain ⟨data, epoch, index, miner, htopics, hdata, hadvance, hsafe, hepoch, hindex, hminer, -⟩ :=
      (decodeRigStateAdvanced_eq_ok htopic).mp hev
    exact ⟨htopics, topicNum_isOk.mp ⟨_, hepoch⟩, topicNum_isOk.mp ⟨_, hindex⟩,
      (topicAddress_isOk (by omega)).mp ⟨_, hminer⟩, data, hdata, hadvance, hsafe⟩
  · intro h
    obtain ⟨data, hdata, hadvance, hsafe⟩ := h.data
    obtain ⟨epoch, hepoch⟩ := topicNum_isOk.mpr h.epoch
    obtain ⟨index, hindex⟩ := topicNum_isOk.mpr h.transitionIndex
    have htopics := h.topics
    obtain ⟨miner, hminer⟩ := (topicAddress_isOk (by omega)).mpr h.miner
    exact ⟨_, (decodeRigStateAdvanced_eq_ok htopic).mpr ⟨data, epoch, index, miner, h.topics, hdata,
      hadvance, hsafe, hepoch, hindex, hminer, rfl⟩⟩

theorem decodeStateAdvanced_isOk :
    (∃ ev, decodeStateAdvanced keccak256 log provenance = .ok ev) ↔ PyAdvance log := by
  constructor
  · rintro ⟨ev, hev⟩
    obtain ⟨data, offset, epoch, index, miner, hdata, hwords, hoffset, hadvance, hepoch, hindex,
      hminer, -⟩ := (decodeStateAdvanced_eq_ok htopic).mp hev
    exact ⟨topicUint_isOk.mp ⟨_, hepoch⟩, topicUint_isOk.mp ⟨_, hindex⟩,
      pyTopicAddress_isOk.mp ⟨_, hminer⟩, data, offset, hdata, hwords, hoffset, hadvance⟩
  · intro h
    obtain ⟨data, offset, hdata, hwords, hoffset, hadvance⟩ := h.data
    obtain ⟨epoch, hepoch⟩ := topicUint_isOk.mpr h.epoch
    obtain ⟨index, hindex⟩ := topicUint_isOk.mpr h.transitionIndex
    obtain ⟨miner, hminer⟩ := pyTopicAddress_isOk.mpr h.miner
    exact ⟨_, (decodeStateAdvanced_eq_ok htopic).mpr ⟨data, offset, epoch, index, miner, hdata,
      hwords, hoffset, hadvance, hepoch, hindex, hminer, rfl⟩⟩

theorem decodeRigStateAdvanced_ne_none : decodeRigStateAdvanced keccak256 log ≠ .ok none := by
  intro hnone
  rw [decodeRigStateAdvanced, if_neg (not_not.mpr htopic)] at hnone
  simp only [bind_eq_ok, pure_eq_ok, reduceCtorEq, and_false, exists_false] at hnone

/-- A plain advance is accepted by both, with equal fields. -/
theorem PlainAdvance.agree (h : PlainAdvance log) :
    ∃ ts py, decodeRigStateAdvanced keccak256 log = .ok (some ts) ∧
      decodeStateAdvanced keccak256 log provenance = .ok py ∧ SameAdvance ts py := by
  obtain ⟨data, hplain, hadvance, hsafe⟩ := h.data
  obtain ⟨hts, hpy⟩ := hplain.reads
  obtain ⟨epoch, hepoch, hepoch'⟩ := h.epoch.reads_number
  obtain ⟨index, hindex, hindex'⟩ := h.transitionIndex.reads_number
  obtain ⟨miner, miner', hminer, hminer', hcodes⟩ := h.miner.reads_address
  have hlength := hadvance.length
  refine ⟨_, _, (decodeRigStateAdvanced_eq_ok htopic).mpr ⟨data, epoch, index, miner, h.topics,
    hts, hadvance, hsafe, hepoch, hindex, hminer, rfl⟩,
    (decodeStateAdvanced_eq_ok htopic).mpr ⟨data, 288, epoch, index, miner', hpy, by omega,
      ⟨by decide, by decide⟩, hadvance, hepoch' _, hindex' _, hminer' _, rfl⟩, ?_⟩
  exact {
    epoch := rfl, transitionIndex := rfl, miner := hcodes
    parentStateRoot := sameHex_bytesToHex _, newStateRoot := sameHex_bytesToHex _
    patchHash := sameHex_bytesToHex _, evalReportHash := sameHex_bytesToHex _
    coreVersionHash := sameHex_bytesToHex _, epochContextRoot := sameHex_bytesToHex _
    improvementCredits := rfl, transitionFormatVersion := rfl, compactPatchBytes := rfl }

/-- An advance that both accept with equal fields is plain. -/
theorem PlainAdvance.of_agree {ts : RigStateAdvancedEvent} {py : Join.StateAdvanced}
    (hts : decodeRigStateAdvanced keccak256 log = .ok (some ts))
    (hpy : decodeStateAdvanced keccak256 log provenance = .ok py) (hsame : SameAdvance ts py) :
    PlainAdvance log := by
  obtain ⟨a, epoch, index, miner, htopics, ha, hadvance, hsafe, hepoch, hindex, hminer, rfl⟩ :=
    (decodeRigStateAdvanced_eq_ok htopic).mp hts
  obtain ⟨b, offset, epoch', index', miner', hb, -, hoffset, hadvance', hepoch', hindex', hminer',
    rfl⟩ := (decodeStateAdvanced_eq_ok htopic).mp hpy
  have hepochs : epoch = (epoch' : Int) := hsame.epoch
  have hindexes : index = (index' : Int) := hsame.transitionIndex
  rw [hepochs] at hepoch
  rw [hindexes] at hindex
  -- equal payloads: the data of the TypeScript side are not longer
  have hle : a.length ≤ b.length := by
    have hpayload := congrArg List.length hsame.compactPatchBytes
    have hlength := hadvance.length
    have hlength' := hadvance'.length
    have hhead := hoffset.1
    simp only [tsAdvance, pyAdvance, List.length_take, List.length_drop] at hpayload
    omega
  obtain ⟨hplain, -⟩ := PlainHex.of_reads ha hb hle
  exact ⟨htopics, plainNumber_of_reads hepoch hepoch', plainNumber_of_reads hindex hindex',
    plainAddress_of_reads hminer hminer', a, hplain, hadvance, hsafe⟩

theorem agree_advance_iff :
    Agree SameAdvance (decodeRigStateAdvanced keccak256 log)
        (decodeStateAdvanced keccak256 log provenance) ↔
      PlainAdvance log ∨ ¬ TsAdvance log ∧ ¬ PyAdvance log :=
  agree_iff (decodeRigStateAdvanced_ne_none htopic) (decodeRigStateAdvanced_isOk htopic)
    (decodeStateAdvanced_isOk htopic) (PlainAdvance.agree htopic)
    fun hts hpy hsame => PlainAdvance.of_agree htopic hts hpy hsame

end Advance

/-! ### Finalizations -/

section Finalized

variable (htopic : (log.topics[0]?.getD "").toLower = eventTopic keccak256 sigEpochFinalized)
include htopic

theorem decodeRigEpochFinalized_eq_ok {ev : RigEpochFinalizedEvent} :
    decodeRigEpochFinalized keccak256 log = .ok (some ev) ↔
      ∃ data epoch, log.topics.length = 2 ∧ hexToBytes log.data = .ok data ∧
        data.length = 6 * 32 ∧ topicNum log 1 = .ok epoch ∧
        { epoch, parentStateRoot := bytesToHex (slot data 0)
          finalStateRoot := bytesToHex (slot data 1), coreVersionHash := bytesToHex (slot data 2)
          epochContextRoot := bytesToHex (slot data 3), patchSetRoot := bytesToHex (slot data 4)
          scoreRoot := bytesToHex (slot data 5) } = ev := by
  rw [decodeRigEpochFinalized, if_neg (not_not.mpr htopic)]
  simp only [bind_eq_ok, refuseIf_eq_ok, exists_const, word_eq_ok, pure_eq_ok, not_not]
  constructor
  · rintro ⟨htopics, data, hdata, hlen, epoch, hepoch, _, ⟨-, rfl⟩, _, ⟨-, rfl⟩, _, ⟨-, rfl⟩, _,
      ⟨-, rfl⟩, _, ⟨-, rfl⟩, _, ⟨-, rfl⟩, hev⟩
    exact ⟨data, epoch, htopics, hdata, hlen, hepoch, Option.some.inj hev⟩
  · rintro ⟨data, epoch, htopics, hdata, hlen, hepoch, rfl⟩
    exact ⟨htopics, data, hdata, hlen, epoch, hepoch, _, ⟨by omega, rfl⟩, _, ⟨by omega, rfl⟩, _,
      ⟨by omega, rfl⟩, _, ⟨by omega, rfl⟩, _, ⟨by omega, rfl⟩, _, ⟨by omega, rfl⟩, rfl⟩

theorem decodeEpochFinalized_eq_ok {ev : EpochFinalized} :
    decodeEpochFinalized keccak256 log provenance = .ok ev ↔
      ∃ data epoch, PyHex log.data data ∧ data.length % 32 = 0 ∧ 6 * 32 ≤ data.length ∧
        topicUint log 1 "epoch" 64 = .ok epoch ∧
        { epoch, parentStateRoot := hexText (slot data 0), finalStateRoot := hexText (slot data 1)
          coreVersionHash := hexText (slot data 2), epochContextRoot := hexText (slot data 3)
          patchSetRoot := hexText (slot data 4), scoreRoot := hexText (slot data 5)
          provenance } = ev := by
  rw [decodeEpochFinalized, requireTopic0_of_topic htopic, ok_bind]
  simp only [bind_eq_ok, pyWord_eq_ok, pure_eq_ok, logData_eq_ok]
  constructor
  · rintro ⟨data, ⟨hdata, hwords⟩, _, ⟨-, rfl⟩, _, ⟨-, rfl⟩, _, ⟨-, rfl⟩, _, ⟨-, rfl⟩, _, ⟨-, rfl⟩,
      _, ⟨hlen, rfl⟩, epoch, hepoch, hev⟩
    exact ⟨data, epoch, hdata, hwords, hlen, hepoch, hev⟩
  · rintro ⟨data, epoch, hdata, hwords, hlen, hepoch, rfl⟩
    exact ⟨data, ⟨hdata, hwords⟩, _, ⟨by omega, rfl⟩, _, ⟨by omega, rfl⟩, _, ⟨by omega, rfl⟩, _,
      ⟨by omega, rfl⟩, _, ⟨by omega, rfl⟩, _, ⟨by omega, rfl⟩, epoch, hepoch, rfl⟩

theorem decodeRigEpochFinalized_isOk :
    (∃ ev, decodeRigEpochFinalized keccak256 log = .ok (some ev)) ↔ TsFinalized log := by
  constructor
  · rintro ⟨ev, hev⟩
    obtain ⟨data, epoch, htopics, hdata, hlen, hepoch, -⟩ :=
      (decodeRigEpochFinalized_eq_ok htopic).mp hev
    exact ⟨htopics, topicNum_isOk.mp ⟨_, hepoch⟩, data, hdata, hlen⟩
  · intro h
    obtain ⟨data, hdata, hlen⟩ := h.data
    obtain ⟨epoch, hepoch⟩ := topicNum_isOk.mpr h.epoch
    exact ⟨_, (decodeRigEpochFinalized_eq_ok htopic).mpr ⟨data, epoch, h.topics, hdata, hlen,
      hepoch, rfl⟩⟩

theorem decodeEpochFinalized_isOk :
    (∃ ev, decodeEpochFinalized keccak256 log provenance = .ok ev) ↔ PyFinalized log := by
  constructor
  · rintro ⟨ev, hev⟩
    obtain ⟨data, epoch, hdata, hwords, hlen, hepoch, -⟩ :=
      (decodeEpochFinalized_eq_ok htopic).mp hev
    exact ⟨topicUint_isOk.mp ⟨_, hepoch⟩, data, hdata, hwords, hlen⟩
  · intro h
    obtain ⟨data, hdata, hwords, hlen⟩ := h.data
    obtain ⟨epoch, hepoch⟩ := topicUint_isOk.mpr h.epoch
    exact ⟨_, (decodeEpochFinalized_eq_ok htopic).mpr ⟨data, epoch, hdata, hwords, hlen, hepoch,
      rfl⟩⟩

theorem decodeRigEpochFinalized_ne_none : decodeRigEpochFinalized keccak256 log ≠ .ok none := by
  intro hnone
  rw [decodeRigEpochFinalized, if_neg (not_not.mpr htopic)] at hnone
  simp only [bind_eq_ok, pure_eq_ok, reduceCtorEq, and_false, exists_false] at hnone

/-- A plain finalization is accepted by both, with equal fields. -/
theorem PlainFinalized.agree (h : PlainFinalized log) :
    ∃ ts py, decodeRigEpochFinalized keccak256 log = .ok (some ts) ∧
      decodeEpochFinalized keccak256 log provenance = .ok py ∧ SameFinalized ts py := by
  obtain ⟨data, hplain, hlen⟩ := h.data
  obtain ⟨hts, hpy⟩ := hplain.reads
  obtain ⟨epoch, hepoch, hepoch'⟩ := h.epoch.reads_number
  refine ⟨_, _, (decodeRigEpochFinalized_eq_ok htopic).mpr ⟨data, epoch, h.topics, hts, hlen,
    hepoch, rfl⟩, (decodeEpochFinalized_eq_ok htopic).mpr ⟨data, epoch, hpy, by omega, by omega,
      hepoch' _, rfl⟩, ?_⟩
  exact {
    epoch := rfl
    parentStateRoot := sameHex_bytesToHex _, finalStateRoot := sameHex_bytesToHex _
    coreVersionHash := sameHex_bytesToHex _, epochContextRoot := sameHex_bytesToHex _
    patchSetRoot := sameHex_bytesToHex _, scoreRoot := sameHex_bytesToHex _ }

/-- A finalization that both accept with one epoch is plain. -/
theorem PlainFinalized.of_agree {ts : RigEpochFinalizedEvent} {py : EpochFinalized}
    (hts : decodeRigEpochFinalized keccak256 log = .ok (some ts))
    (hpy : decodeEpochFinalized keccak256 log provenance = .ok py) (hsame : SameFinalized ts py) :
    PlainFinalized log := by
  obtain ⟨a, epoch, htopics, ha, hlen, hepoch, rfl⟩ :=
    (decodeRigEpochFinalized_eq_ok htopic).mp hts
  obtain ⟨b, epoch', hb, -, hlen', hepoch', rfl⟩ := (decodeEpochFinalized_eq_ok htopic).mp hpy
  have hepochs : epoch = (epoch' : Int) := hsame.epoch
  rw [hepochs] at hepoch
  obtain ⟨hplain, -⟩ := PlainHex.of_reads ha hb (by omega)
  exact ⟨htopics, plainNumber_of_reads hepoch hepoch', a, hplain, hlen⟩

theorem agree_finalized_iff :
    Agree SameFinalized (decodeRigEpochFinalized keccak256 log)
        (decodeEpochFinalized keccak256 log provenance) ↔
      PlainFinalized log ∨ ¬ TsFinalized log ∧ ¬ PyFinalized log :=
  agree_iff (decodeRigEpochFinalized_ne_none htopic) (decodeRigEpochFinalized_isOk htopic)
    (decodeEpochFinalized_isOk htopic) (PlainFinalized.agree htopic)
    fun hts hpy hsame => PlainFinalized.of_agree htopic hts hpy hsame

end Finalized

/-- **The two hosts agree on a log exactly when it is plain or both refuse it.** -/
theorem rigDecoders_agree_iff (keccak256 : Bytes → Digest) (log : RpcLog)
    (provenance : Join.LogProvenance) :
    ((log.topics[0]?.getD "").toLower = eventTopic keccak256 sigStateAdvanced →
      (Agree SameAdvance (decodeRigStateAdvanced keccak256 log)
          (decodeStateAdvanced keccak256 log provenance) ↔
        PlainAdvance log ∨ ¬ TsAdvance log ∧ ¬ PyAdvance log)) ∧
    ((log.topics[0]?.getD "").toLower = eventTopic keccak256 sigEpochFinalized →
      (Agree SameFinalized (decodeRigEpochFinalized keccak256 log)
          (decodeEpochFinalized keccak256 log provenance) ↔
        PlainFinalized log ∨ ¬ TsFinalized log ∧ ¬ PyFinalized log)) :=
  ⟨fun htopic => agree_advance_iff htopic, fun htopic => agree_finalized_iff htopic⟩

end Agreement

/-! ### A plain log, and one with dirty high bits -/

/-- The hash of the repository, as a digest. -/
def keccakDigest (data : Bytes) : Digest :=
  tailDigest (Hash.keccak256Ts data)

/-- A finalization of six zero words for an epoch. -/
def finalizedLog (epoch : Nat) : RpcLog where
  topics := [eventTopic keccakDigest sigEpochFinalized, bytesToHex (writeBE 32 epoch)]
  data := bytesToHex (List.replicate 192 0)

def noProvenance : Join.LogProvenance where
  address := none
  blockNumber := none
  logIndex := none
  transactionHash := none
  transactionIndex := none
  removed := false

theorem topic_finalizedLog (epoch : Nat) :
    ((finalizedLog epoch).topics[0]?.getD "").toLower =
      eventTopic keccakDigest sigEpochFinalized :=
  toLower_bytesToHex _

theorem pyHex_bytesToHex (bytes : Bytes) : PyHex (bytesToHex bytes) bytes :=
  pyHex_of_toLower (toLower_bytesToHex bytes)

theorem bigInt_writeBE {n : Nat} (h : n < 2 ^ 256) :
    bigInt (bytesToHex (writeBE 32 n)) = some (n : Int) := by
  have hne : writeBE 32 n ≠ [] := by
    intro hnil
    have := congrArg List.length hnil
    simp at this
  have hmod : n % 256 ^ 32 = n := Nat.mod_eq_of_lt h
  rw [bytesToHex, bigInt_hexChars hne, readBE_writeBE, hmod]

theorem readBE_writeBE_32 {n : Nat} (h : n < 2 ^ 256) : readBE (writeBE 32 n) = n := by
  rw [readBE_writeBE]
  exact Nat.mod_eq_of_lt h

theorem plainFinalized_finalizedLog {epoch : Nat} (h : epoch < 2 ^ 64) :
    PlainFinalized (finalizedLog epoch) := by
  have hwide : epoch < 2 ^ 256 := Nat.lt_trans h (by decide)
  refine ⟨rfl, ⟨_, rfl, .of_reads (pyHex_bytesToHex _) (length_writeBE 32 epoch) ?_ ?_⟩, _,
    (PlainHex.of_reads (hexToBytes_bytesToHex _) (pyHex_bytesToHex _) le_rfl).1,
    List.length_replicate⟩
  · rw [readBE_writeBE_32 hwide]
    exact h
  · rw [readBE_writeBE_32 hwide]
    exact bigInt_writeBE hwide

/-- A finalization of epoch 7 is accepted by both hosts with equal fields. -/
theorem rigDecoders_agree_epoch7 :
    Agree SameFinalized (decodeRigEpochFinalized keccakDigest (finalizedLog 7))
      (decodeEpochFinalized keccakDigest (finalizedLog 7) noProvenance) :=
  ((rigDecoders_agree_iff keccakDigest (finalizedLog 7) noProvenance).2
    (topic_finalizedLog 7)).mpr (.inl (plainFinalized_finalizedLog (by decide)))

/-- An epoch topic of `2 ^ 64` is an epoch to the TypeScript decoder; the Python decoder refuses
its dirty high bits. -/
theorem rigDecoders_dirtyEpoch :
    ¬ ∀ (log : RpcLog) (provenance : Join.LogProvenance),
      (log.topics[0]?.getD "").toLower = eventTopic keccakDigest sigEpochFinalized →
        Agree SameFinalized (decodeRigEpochFinalized keccakDigest log)
          (decodeEpochFinalized keccakDigest log provenance) := by
  intro h
  have htopic := topic_finalizedLog (2 ^ 64)
  have hbig := bigInt_writeBE (by decide : 2 ^ 64 < 2 ^ 256)
  have hreads : TsFinalized (finalizedLog (2 ^ 64)) := by
    refine ⟨rfl, ⟨_, rfl, ?_, ?_⟩, _, hexToBytes_bytesToHex _, List.length_replicate⟩
    · intro hempty
      have := congrArg String.toList hempty
      rw [toList_bytesToHex] at this
      cases this
    · rw [hbig]
      rfl
  rcases (agree_finalized_iff htopic).mp (h _ noProvenance htopic) with hplain | ⟨hno, -⟩
  · obtain ⟨text, htext, hnumber⟩ := hplain.epoch
    cases htext
    obtain ⟨bytes, -, -, hlt, -, hread⟩ := hnumber.reads
    rw [hbig, Option.some.injEq] at hread
    omega
  · exact hno hreads

end CoreTex.RigDispatch
