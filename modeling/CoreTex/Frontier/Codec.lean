import CoreTex.Frontier.Transition
import CoreTex.Lib.JsonOrder

/-!
# CoreTex.Frontier.Codec

Canonical bytes as a codec (`frontier.py`): what `parse_json` reads back from
`canonical_bytes`, and the byte strings that `parse_transition_bytes` accepts.

The codec is the library's round trip at the hook of `parse_json`. What remains here is that a
document which passes `_check_value` is one that the round trip covers, and that the documents
of transitions pass it.
-/

namespace CoreTex

open CoreTex.Lib

/-- `parse_json(data.decode("utf-8"))`. -/
def parseJsonBytes (data : Bytes) : Except FrontierError Json := do
  let text ← expect (.schema "transitionBytes") (decodeUtf8 data)
  parseJson text

/-- `parse_transition_bytes`. -/
def parseTransitionBytes (data : Bytes) : Except FrontierError Json := do
  refuseIf (data.length > maxTransitionBytes) .transitionSize
  let transition ← parseJsonBytes data
  let _ ← validateTransition transition
  let bytes ← canonicalBytes transition
  refuseIf (bytes ≠ data) (.schema "transitionBytes")
  .ok transition

/-! ### Documents that are canonical values -/

theorem checkValue_arr_iff {items : List Json} {depth : Nat} :
    checkValue (.arr items) depth = .ok () ↔
      ¬ depth > maxDepth ∧ ∀ x ∈ items, checkValue x (depth + 1) = .ok () := by
  rw [checkValue, refuseIf_bind_eq_ok, checkItems_eq_ok]

theorem checkValue_obj_iff {pairs : List (PyStr × Json)} {depth : Nat} :
    checkValue (.obj pairs) depth = .ok () ↔
      ¬ depth > maxDepth ∧ ∀ e ∈ pairs, checkValue e.2 (depth + 1) = .ok () := by
  rw [checkValue, refuseIf_bind_eq_ok, checkPairs_eq_ok]

/-- A canonical value is covered by the round trip. -/
theorem plain_of_checkValue {d : Json} {depth : Nat} (hwf : d.WF) (hscalars : d.Scalars)
    (h : checkValue d depth = .ok ()) : d.Plain := by
  induction d using Json.induction generalizing depth with
  | null => cases h
  | bool b => trivial
  | int n => trivial
  | float literal => cases h
  | str s => exact hscalars
  | arr items ih =>
      rw [Json.WF, wfItems_iff] at hwf
      rw [Json.Scalars, scalarsItems_iff] at hscalars
      have hall := (checkValue_arr_iff.mp h).2
      rw [Json.Plain, plainItems_iff]
      exact fun x hx => ih x hx (hwf x hx) (hscalars x hx) (hall x hx)
  | obj pairs ih =>
      rw [Json.WF, wfPairs_iff] at hwf
      rw [Json.Scalars, scalarsPairs_iff] at hscalars
      have hall := (checkValue_obj_iff.mp h).2
      rw [Json.Plain, plainPairs_iff]
      exact ⟨hwf.1, fun e he => ⟨(hscalars e he).1,
        ih e he (hwf.2 e he) (hscalars e he).2 (hall e he)⟩⟩

/-- `_check_value` has one error. -/
theorem checkValue_cases (d : Json) (depth : Nat) :
    checkValue d depth = .ok () ∨ checkValue d depth = .error .canonicalization := by
  have hrefuse : ∀ n : Nat, refuseIf (n > maxDepth) FrontierError.canonicalization = .ok () ∨
      refuseIf (n > maxDepth) FrontierError.canonicalization = .error .canonicalization := by
    intro n
    by_cases hn : n > maxDepth
    · exact .inr (refuseIf_of hn _)
    · exact .inl (refuseIf_of_not hn _)
  induction d using Json.induction generalizing depth with
  | null => exact .inr rfl
  | bool b => exact hrefuse depth
  | int n => exact hrefuse depth
  | float literal => exact .inr rfl
  | str s => exact hrefuse depth
  | arr items ih =>
      have hitems : checkItems items (depth + 1) = .ok () ∨
          checkItems items (depth + 1) = .error .canonicalization := by
        induction items with
        | nil => exact .inl rfl
        | cons x items ihItems =>
            rw [List.forall_mem_cons] at ih
            rw [checkItems]
            rcases ih.1 (depth + 1) with hx | hx
            · rw [hx]
              exact ihItems ih.2
            · exact .inr (by rw [hx]; rfl)
      rw [checkValue]
      rcases hrefuse depth with hdepth | hdepth
      · rw [hdepth]
        exact hitems
      · exact .inr (by rw [hdepth]; rfl)
  | obj pairs ih =>
      have hpairs : checkPairs pairs (depth + 1) = .ok () ∨
          checkPairs pairs (depth + 1) = .error .canonicalization := by
        induction pairs with
        | nil => exact .inl rfl
        | cons e pairs ihPairs =>
            rw [List.forall_mem_cons] at ih
            rw [checkPairs]
            rcases ih.1 (depth + 1) with hx | hx
            · rw [hx]
              exact ihPairs ih.2
            · exact .inr (by rw [hx]; rfl)
      rw [checkValue]
      rcases hrefuse depth with hdepth | hdepth
      · rw [hdepth]
        exact hpairs
      · exact .inr (by rw [hdepth]; rfl)

/-- Rearranged documents are canonical values together. -/
theorem checkValue_rearranged {a b : Json} (h : a.Rearranged b) (depth : Nat) :
    checkValue a depth = .ok () ↔ checkValue b depth = .ok () := by
  induction h generalizing depth with
  | refl d => rfl
  | trans _ _ ihab ihbc => rw [ihab, ihbc]
  | keys h =>
      rw [checkValue_obj_iff, checkValue_obj_iff]
      exact and_congr_right fun _ => forall_congr' fun e => by rw [h.mem_iff]
  | item before after _ ih =>
      simp only [checkValue_arr_iff, List.forall_mem_append, List.forall_mem_cons, ih]
  | value before after key _ ih =>
      simp only [checkValue_obj_iff, List.forall_mem_append, List.forall_mem_cons, ih]

theorem isObj_rearranged {a b : Json} (h : a.Rearranged b) :
    (∃ pairs, a = .obj pairs) ↔ ∃ pairs, b = .obj pairs := by
  induction h with
  | refl d => rfl
  | trans _ _ ihab ihbc => rw [ihab, ihbc]
  | keys h => simp
  | item before after _ ih => simp
  | value before after key _ ih => simp

theorem canonicalBytes_eq_ok {d : Json} {bytes : Bytes} : canonicalBytes d = .ok bytes ↔
    (∃ pairs, d = .obj pairs) ∧ checkValue d 0 = .ok () ∧ bytes = d.dumps := by
  cases d with
  | obj pairs =>
      rw [canonicalBytes, bind_eq_ok]
      constructor
      · intro ⟨(), hcheck, hbytes⟩
        cases hbytes
        exact ⟨⟨_, rfl⟩, hcheck, rfl⟩
      · intro ⟨_, hcheck, hbytes⟩
        exact ⟨(), hcheck, by rw [hbytes]⟩
  | _ =>
      constructor
      · intro h
        cases h
      · intro ⟨⟨_, h⟩, _⟩
        cases h

theorem canonicalBytes_cases (d : Json) :
    canonicalBytes d = .ok d.dumps ∨ canonicalBytes d = .error .canonicalization := by
  cases d with
  | obj pairs =>
      rw [canonicalBytes]
      rcases checkValue_cases (.obj pairs) 0 with h | h
      · exact .inl (by rw [h]; rfl)
      · exact .inr (by rw [h]; rfl)
  | _ => exact .inr rfl

/-- **Canonical bytes do not see the order of keys.** -/
theorem canonicalBytes_rearranged {a b : Json} (hwf : a.WF) (h : a.Rearranged b) :
    canonicalBytes a = canonicalBytes b := by
  have hdumps : a.dumps = b.dumps := by rw [Json.dumps, Json.dumps, h.sortKeys_eq hwf]
  have hok : ∀ bytes, canonicalBytes a = .ok bytes ↔ canonicalBytes b = .ok bytes := fun bytes => by
    rw [canonicalBytes_eq_ok, canonicalBytes_eq_ok, isObj_rearranged h, checkValue_rearranged h,
      hdumps]
  rcases canonicalBytes_cases a with ha | ha
  · rw [ha, (hok _).mp ha]
  · rcases canonicalBytes_cases b with hb | hb
    · rw [(hok _).mpr hb] at ha
      cases ha
    · rw [ha, hb]

/-! ### The round trip -/

theorem rejectDuplicates_of_nodup (pairs : List (PyStr × Json))
    (h : (pairs.map Prod.fst).Nodup) : rejectDuplicates pairs = .ok (.obj pairs) :=
  if_pos h

/-- What `parse_json` returns has distinct keys. -/
theorem parseJson_wf {text : PyStr} {d : Json} (h : parseJson text = .ok d) : d.WF := by
  refine loads_wf (fun pairs d hpairs hd => ?_) h
  rw [rejectDuplicates] at hd
  split at hd
  next hnodup =>
    cases hd
    exact ⟨hnodup, hpairs⟩
  next => cases hd

/-- The sorted form of a document is read back from its serialization. -/
theorem parseJsonBytes_dumps {d : Json} (h : d.Plain) :
    parseJsonBytes d.dumps = .ok d.sortKeys := by
  have hplain : d.sortKeys.Plain := (Json.Rearranged.sortKeys d).plain h
  rw [parseJsonBytes, Json.dumps, decodeUtf8_ascii (isAscii_ser hplain), expect_some, ok_bind]
  exact loads_ser rejectDuplicates_of_nodup hplain

/-- Documents with the same bytes are rearranged. -/
theorem rearranged_of_dumps_eq {a b : Json} (ha : a.Plain) (hb : b.Plain)
    (h : a.dumps = b.dumps) : a.Rearranged b := by
  have hread := parseJsonBytes_dumps ha
  rw [h, parseJsonBytes_dumps hb] at hread
  rw [Except.ok.injEq] at hread
  exact .of_sortKeys_eq hread.symm

/-! ### Transitions -/

/-- A well-formed document that reads as a transition is its document, up to key order. -/
theorem Transition.Reads.sortKeys {doc : List (PyStr × Json)} {t : Transition}
    (hwf : (Json.obj doc).WF) (h : Transition.Reads doc t) : (Json.obj doc).sortKeys = t.json := by
  have hsorted : Ascending transitionFields := by decide +kernel
  rw [sortKeys_obj_fields hwf.1 hsorted h.required]
  · simp only [transitionFields, List.map_cons, List.map_nil, h.expectedPriorReleaseRoot,
      h.format, h.newReleaseRoot, h.resultingCompositionRoot, h.targetProfile, Root.json,
      Json.sortKeys, Transition.json, Transition.members]
  · intro k hk
    obtain ⟨e, he, rfl⟩ := List.mem_map.mp hk
    obtain ⟨f, hf, hfe⟩ := List.mem_map.mp (h.closed e he)
    exact ⟨f, hf, hfe⟩

theorem Transition.plain_json (t : Transition) : t.json.Plain := by
  have hroot : ∀ r : Root, r.json.Plain := fun r c hc => by
    have := of_decide_eq_true (r.isHexDigit_of_mem hc)
    exact .inl (by omega)
  have hnodup : (t.members.map Prod.fst).Nodup := by
    have : (transitionFields.map py).Nodup := by decide +kernel
    exact this
  have hkeys : ∀ f ∈ transitionFields, Scalar (py f) := by decide +kernel
  have hformat : Scalar (py transitionFormat) := by decide +kernel
  have hid : ∀ p : ProfileId, Scalar (py p.id) := by
    intro p
    cases p <;> decide +kernel
  simp only [transitionFields, List.forall_mem_cons] at hkeys
  obtain ⟨hprior, hkind, hnew, hcomposition, htarget, -⟩ := hkeys
  exact ⟨hnodup, hprior, hroot _, hkind, hformat, hnew, hroot _, hcomposition, hroot _, htarget,
    hid _, trivial⟩

/-- A document that reads as a transition is canonical within the size bound. -/
theorem Transition.Reads.canonicalBytes {doc : List (PyStr × Json)} {t : Transition}
    (hwf : (Json.obj doc).WF) (h : Transition.Reads doc t) :
    canonicalBytes (.obj doc) = .ok t.json.dumps := by
  have hrearranged : (Json.obj doc).Rearranged t.json := h.sortKeys hwf ▸ .sortKeys _
  rw [canonicalBytes_rearranged hwf hrearranged, t.canonicalBytes_json]

theorem checkRoot_failsWith (value : Json) (field : String) :
    FailsWith (· ≠ .transitionSize) (checkRoot value field) := by
  intro e h
  cases value with
  | str s =>
      rw [checkRoot] at h
      split at h
      · cases h
      · cases h
        intro hsize
        cases hsize
  | _ =>
      cases h
      intro hsize
      cases hsize

theorem checkProfileId_failsWith (value : Json) (field : String) :
    FailsWith (· ≠ .transitionSize) (checkProfileId value field) := by
  intro e h
  cases value with
  | str s =>
      rw [checkProfileId] at h
      split at h
      · cases h
      · cases h
        intro hsize
        cases hsize
  | _ =>
      cases h
      intro hsize
      cases hsize

theorem checkClosedFields_failsWith (document : Json) (fields : List String) (family : String) :
    FailsWith (· ≠ .transitionSize) (checkClosedFields document fields family) := by
  cases document with
  | obj pairs =>
      exact (FailsWith.refuseIf nofun).bind fun _ _ =>
        (FailsWith.refuseIf nofun).bind fun _ _ => FailsWith.pure pairs
  | _ => exact FailsWith.throw nofun

/-- No document is refused as a transition for its size. -/
theorem validateTransition_size {d : Json} (hwf : d.WF) :
    FailsWith (· ≠ .transitionSize) (validateTransition d) := by
  refine (checkClosedFields_failsWith _ _ _).bind fun doc hdoc => ?_
  obtain ⟨rfl, required, closed⟩ := checkClosedFields_eq_ok.mp hdoc
  refine (FailsWith.refuseIf nofun).bind fun _ hformat => ?_
  refine (checkProfileId_failsWith _ _).bind fun profile hprofile => ?_
  refine (checkRoot_failsWith _ _).bind fun prior hprior => ?_
  refine (checkRoot_failsWith _ _).bind fun new hnew => ?_
  refine (checkRoot_failsWith _ _).bind fun composition hcomposition => ?_
  refine (FailsWith.refuseIf nofun).bind fun _ hmoves => ?_
  rw [refuseIf_eq_ok, Bool.not_eq_false, Json.isStr_iff] at hformat
  rw [refuseIf_eq_ok] at hmoves
  let t : Transition :=
    { expectedPriorReleaseRoot := prior, newReleaseRoot := new,
      resultingCompositionRoot := composition, targetProfile := profile }
  -- every field is the record's, so the bytes are the record's, and these are short
  have hreads : Transition.Reads doc t :=
    ⟨required, closed, hformat, checkProfileId_eq_ok.mp hprofile, checkRoot_eq_ok.mp hprior,
      checkRoot_eq_ok.mp hnew, checkRoot_eq_ok.mp hcomposition, hmoves⟩
  rw [hreads.canonicalBytes hwf, ok_bind, refuseIf_of_not (Nat.not_lt.mpr t.length_dumps)]
  exact FailsWith.pure _

/-- A valid transition document is its record's document, up to key order. -/
theorem validateTransition_rearranged {d : Json} (hwf : d.WF) {t : Transition}
    (h : validateTransition d = .ok t) : d.Rearranged t.json := by
  obtain ⟨⟨doc, rfl, hreads⟩, -⟩ := validateTransition_eq_ok.mp h
  exact hreads.sortKeys hwf ▸ .sortKeys _

/-- The byte strings that `parse_transition_bytes` accepts. -/
theorem parseTransitionBytes_eq_ok {data : Bytes} {d : Json} :
    parseTransitionBytes data = .ok d ↔ parseJsonBytes data = .ok d ∧
      (∃ t, validateTransition d = .ok t) ∧ canonicalBytes d = .ok data := by
  constructor
  · intro h
    obtain ⟨-, h⟩ := refuseIf_bind_eq_ok.mp h
    obtain ⟨d', hparse, h⟩ := bind_eq_ok.mp h
    obtain ⟨t, ht, h⟩ := bind_eq_ok.mp h
    obtain ⟨bytes, hbytes, h⟩ := bind_eq_ok.mp h
    obtain ⟨hsame, h⟩ := refuseIf_bind_eq_ok.mp h
    cases h
    exact ⟨hparse, ⟨t, ht⟩, by rw [hbytes, not_not.mp hsame]⟩
  · intro ⟨hparse, ⟨t, ht⟩, hbytes⟩
    have hsize : ¬ data.length > maxTransitionBytes := by
      obtain ⟨-, bytes, hbytes', hle⟩ := validateTransition_eq_ok.mp ht
      cases hbytes.symm.trans hbytes'
      exact Nat.not_lt.mpr hle
    refine refuseIf_bind_eq_ok.mpr ⟨hsize, bind_eq_ok.mpr ⟨d, hparse, ?_⟩⟩
    refine bind_eq_ok.mpr ⟨t, ht, bind_eq_ok.mpr ⟨data, hbytes, ?_⟩⟩
    exact refuseIf_bind_eq_ok.mpr ⟨not_not_intro rfl, rfl⟩

/-- **Canonical JSON is a codec.** A document that `parse_json` returns and that
`canonical_bytes` does not refuse is read back from its bytes, up to the order of keys, which
equality of documents does not see; the bytes determine the document and do not depend on that
order; and `parse_transition_bytes` accepts exactly the canonical bytes of valid transitions, none
of which its size refuses. -/
theorem canonicalJson_codec :
    (∀ text d bytes, parseJson text = .ok d → d.Scalars → canonicalBytes d = .ok bytes →
      ∃ d', parseJsonBytes bytes = .ok d' ∧ d.Rearranged d') ∧
    (∀ texta textb a b bytes, parseJson texta = .ok a → parseJson textb = .ok b → a.Scalars →
      b.Scalars → canonicalBytes a = .ok bytes → canonicalBytes b = .ok bytes →
        a.Rearranged b) ∧
    (∀ a b : Json, a.WF → a.Rearranged b → canonicalBytes a = canonicalBytes b) ∧
    (∀ data, (∃ d, parseTransitionBytes data = .ok d) ↔
      ∃ d : Json, d.WF ∧ (∃ t, validateTransition d = .ok t) ∧ canonicalBytes d = .ok data) ∧
    ∀ d : Json, d.WF → validateTransition d ≠ .error .transitionSize := by
  have hplain : ∀ text d bytes, parseJson text = .ok d → d.Scalars →
      canonicalBytes d = .ok bytes → d.Plain := fun text d bytes hparse hscalars hbytes =>
    plain_of_checkValue (parseJson_wf hparse) hscalars (canonicalBytes_eq_ok.mp hbytes).2.1
  refine ⟨?_, ?_, fun a b => canonicalBytes_rearranged, ?_, fun d hwf h => validateTransition_size hwf _ h rfl⟩
  · intro text d bytes hparse hscalars hbytes
    obtain ⟨-, -, rfl⟩ := canonicalBytes_eq_ok.mp hbytes
    exact ⟨_, parseJsonBytes_dumps (hplain text d _ hparse hscalars hbytes), .sortKeys d⟩
  · intro texta textb a b bytes ha hb hsa hsb hbytesa hbytesb
    obtain ⟨-, -, hdumpsa⟩ := canonicalBytes_eq_ok.mp hbytesa
    obtain ⟨-, -, hdumpsb⟩ := canonicalBytes_eq_ok.mp hbytesb
    exact rearranged_of_dumps_eq (hplain texta a bytes ha hsa hbytesa)
      (hplain textb b bytes hb hsb hbytesb) (hdumpsa.symm.trans hdumpsb)
  · intro data
    constructor
    · intro ⟨d, h⟩
      obtain ⟨hparse, hvalid, hbytes⟩ := parseTransitionBytes_eq_ok.mp h
      obtain ⟨text, -, hparse⟩ := bind_eq_ok.mp hparse
      exact ⟨d, parseJson_wf hparse, hvalid, hbytes⟩
    · intro ⟨d, hwf, ⟨t, ht⟩, hbytes⟩
      have hrearranged := validateTransition_rearranged hwf ht
      have hdata : data = t.json.dumps := by
        rw [canonicalBytes_rearranged hwf hrearranged, t.canonicalBytes_json] at hbytes
        cases hbytes
        rfl
      have hmoves : t.newReleaseRoot ≠ t.expectedPriorReleaseRoot := by
        obtain ⟨⟨doc, -, hreads⟩, -⟩ := validateTransition_eq_ok.mp ht
        exact hreads.moves
      refine ⟨t.json, parseTransitionBytes_eq_ok.mpr ⟨?_, ⟨t, ?_⟩, ?_⟩⟩
      · have hsort : t.json.sortKeys = t.json := by
          obtain ⟨⟨doc, rfl, hreads⟩, -⟩ := validateTransition_eq_ok.mp ht
          rw [← hrearranged.sortKeys_eq hwf, hreads.sortKeys hwf]
        rw [hdata, parseJsonBytes_dumps t.plain_json, hsort]
      · exact validateTransition_json.mpr ⟨hmoves, rfl⟩
      · rw [hdata, t.canonicalBytes_json]

/-- `canonicalJson_codec` on an object whose keys come in descending order. -/
theorem canonicalJson_codec_sample :
    ∃ d', parseJsonBytes (Json.obj [([98], .int 1), ([97], .str [233])]).dumps = .ok d' ∧
      (Json.obj [([98], .int 1), ([97], .str [233])]).Rearranged d' := by
  have hstring : Scalar [233] := by decide
  have hplain : (Json.obj [([98], .int 1), ([97], .str [233])]).Plain :=
    ⟨by decide, by decide, trivial, by decide, hstring, trivial⟩
  have hscalars : (Json.obj [([98], .int 1), ([97], .str [233])]).Scalars :=
    ⟨by decide, trivial, by decide, hstring, trivial⟩
  have hbytes : canonicalBytes (Json.obj [([98], .int 1), ([97], .str [233])]) =
      .ok (Json.obj [([98], .int 1), ([97], .str [233])]).dumps :=
    canonicalBytes_eq_ok.mpr ⟨⟨_, rfl⟩, rfl, rfl⟩
  exact canonicalJson_codec.1 _ _ _ (loads_ser rejectDuplicates_of_nodup hplain) hscalars hbytes

end CoreTex
