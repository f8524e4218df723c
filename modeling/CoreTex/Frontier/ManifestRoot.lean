import CoreTex.Frontier.Manifest
import Mathlib.Data.Set.Function

/-!
# CoreTex.Frontier.ManifestRoot

What a frontier root commits to. `validateManifest_sortKeys`: a document that validates is
the document of its record, up to the order of its keys. `Manifest.bytes_injective`: the
canonical bytes determine the record, because every field before the epoch has a fixed
width and the epoch's digits end at a comma. So a root determines the manifest it
addresses as long as the hash does not collide on the two byte strings.
-/

namespace CoreTex

open CoreTex.Lib

/-! ### Documents up to the order of their keys -/

theorem profilesJson_sortKeys {value : Json} (hwf : value.WF) {profiles : ProfileId → Root}
    (h : checkProfiles value = .ok profiles) : value.sortKeys = profilesJson profiles := by
  obtain ⟨pairs, rfl, hkeys, hall⟩ := checkProfiles_eq_ok.mp h
  have hsorted : Ascending (profileIds.map ProfileId.id) := by decide +kernel
  rw [sortKeys_obj_fields hwf.1 hsorted]
  · rw [profilesJson, List.map_map]
    refine congrArg Json.obj (List.map_congr_left fun p _ => ?_)
    show (py p.id, (field pairs p.id).sortKeys) = (py p.id, (profiles p).json)
    rw [field, hall p]
    rfl
  · intro f hf
    obtain ⟨p, _, rfl⟩ := List.mem_map.mp hf
    rw [hall p]
    rfl
  · intro k hk
    obtain ⟨e, he, rfl⟩ := List.mem_map.mp hk
    obtain ⟨p, hp⟩ := hkeys e he
    exact ⟨p.id, List.mem_map_of_mem (mem_profileIds p), profileOf_eq_some.mp hp⟩

/-- A well-formed document that validates is its record's document, up to key order. -/
theorem validateManifest_sortKeys {manifest : Json} (hwf : manifest.WF) {m : Manifest}
    (h : validateManifest manifest = .ok m) : manifest.sortKeys = m.json := by
  obtain ⟨doc, rfl, hreads⟩ := validateManifest_eq_ok.mp h
  have hprofiles : (field doc "profiles").WF := by
    have hsome := hreads.required "profiles" (by simp [manifestFields])
    obtain ⟨x, hx⟩ := Option.isSome_iff_exists.mp hsome
    rw [field, hx]
    exact wf_of_mem_pairs hwf.2 (mem_of_lookup hx)
  have hsorted : Ascending manifestFields := by decide +kernel
  rw [sortKeys_obj_fields hwf.1 hsorted hreads.required]
  · simp only [manifestFields, List.map_cons, List.map_nil, hreads.benchmarkLawRoot,
      hreads.defaultCompositionRoot, hreads.epoch, hreads.format, hreads.parentFrontierRoot,
      hreads.runtimeAbiRoot, profilesJson_sortKeys hprofiles hreads.profiles, Root.json, epochJson,
      Json.sortKeys, Manifest.json]
  · intro k hk
    obtain ⟨e, he, rfl⟩ := List.mem_map.mp hk
    obtain ⟨f, hf, hfe⟩ := List.mem_map.mp (hreads.closed e he)
    exact ⟨f, hf, hfe⟩

/-! ### The canonical bytes of a record -/

/-- The canonical bytes of a manifest. -/
def Manifest.bytes (m : Manifest) : Bytes :=
  m.json.ser

theorem Manifest.wf_json (m : Manifest) : m.json.WF := by
  refine ⟨?_, ?_⟩
  · have : (manifestFields.map py).Nodup := by decide +kernel
    exact this
  · refine ⟨trivial, trivial, trivial, trivial, trivial, ⟨?_, ?_⟩, trivial, trivial⟩
    · have : (profileIds.map fun p => py p.id).Nodup := by decide +kernel
      exact this
    · exact ⟨trivial, trivial, trivial, trivial⟩

theorem dumps_of_validateManifest {manifest : Json} (hwf : manifest.WF) {m : Manifest}
    (h : validateManifest manifest = .ok m) : manifest.dumps = m.bytes := by
  rw [Json.dumps, validateManifest_sortKeys hwf h, Manifest.bytes]

/-- A valid manifest is canonical: its values are strings, one integer and one object. -/
theorem canonicalBytes_of_validateManifest {manifest : Json} (hwf : manifest.WF) {m : Manifest}
    (h : validateManifest manifest = .ok m) : canonicalBytes manifest = .ok m.bytes := by
  rw [← dumps_of_validateManifest hwf h]
  obtain ⟨doc, rfl, hreads⟩ := validateManifest_eq_ok.mp h
  refine bind_eq_ok.mpr ⟨(), (checkValue_obj (by decide)).mpr fun e he => ?_, rfl⟩
  obtain ⟨f, hf, hfe⟩ := List.mem_map.mp (hreads.closed e he)
  have hfield : field doc f = e.2 := by
    rw [field, lookup_of_mem (x := e.2) hwf.1 (by rw [hfe]; exact he), Option.getD_some]
  rw [← hfield]
  simp only [manifestFields, List.mem_cons, List.not_mem_nil, or_false] at hf
  rcases hf with rfl | rfl | rfl | rfl | rfl | rfl | rfl
  · rw [hreads.benchmarkLawRoot]
    exact checkValue_str (by decide)
  · rw [hreads.defaultCompositionRoot]
    exact checkValue_str (by decide)
  · rw [hreads.epoch]
    exact checkValue_int (by decide)
  · rw [hreads.format]
    exact checkValue_str (by decide)
  · rw [hreads.parentFrontierRoot]
    exact checkValue_str (by decide)
  · obtain ⟨pairs, hpairs, hkeys, hall⟩ := checkProfiles_eq_ok.mp hreads.profiles
    have hpairsWF : (Json.obj pairs).WF := by
      rw [← hpairs, hfield]
      exact wf_of_mem_pairs hwf.2 he
    rw [hpairs, checkValue_obj (by decide)]
    intro e' he'
    obtain ⟨p, hp⟩ := hkeys e' he'
    have hx := lookup_of_mem (k := e'.1) (x := e'.2) hpairsWF.1 he'
    rw [← profileOf_eq_some.mp hp, hall p, Option.some.injEq] at hx
    rw [← hx]
    exact checkValue_str (by decide)
  · rw [hreads.runtimeAbiRoot]
    exact checkValue_str (by decide)

theorem frontierRoot_of_validateManifest {manifest : Json} (hwf : manifest.WF) {m : Manifest}
    (h : validateManifest manifest = .ok m) : frontierRoot manifest = .ok (sha256Hex m.bytes) := by
  rw [frontierRoot, h, ok_bind, canonicalBytes_of_validateManifest hwf h, ok_bind]

@[simp] theorem frontierRoot_json (m : Manifest) :
    frontierRoot m.json = .ok (sha256Hex m.bytes) :=
  frontierRoot_of_validateManifest m.wf_json (validateManifest_json m)

/-! ### The bytes determine the record -/

theorem Root.ser_json (r : Root) : r.json.ser = [34] ++ r.hex.map UInt8.ofNat ++ [34] := by
  rw [Root.json, Json.ser]
  refine serString_of_plain fun c hc => ?_
  have := of_decide_eq_true (r.isHexDigit_of_mem hc)
  omega

theorem Root.ser_json_append_inj {r r' : Root} {s t : Bytes}
    (h : r.json.ser ++ s = r'.json.ser ++ t) : r = r' ∧ s = t := by
  have hlen : r.json.ser.length = r'.json.ser.length := by
    simp [Root.ser_json]
  obtain ⟨hr, hst⟩ := List.append_inj h hlen
  rw [Root.ser_json, Root.ser_json] at hr
  have hmap := List.append_cancel_left (List.append_cancel_right hr)
  refine ⟨Root.ext ?_, hst⟩
  have hback : ∀ x : Root, (x.hex.map UInt8.ofNat).map UInt8.toNat = x.hex := by
    intro x
    rw [List.map_map]
    refine Eq.trans (List.map_congr_left fun c hc => ?_) (List.map_id _)
    have := of_decide_eq_true (x.isHexDigit_of_mem hc)
    show (UInt8.ofNat c).toNat = c
    rw [UInt8.toNat_ofNat', Nat.mod_eq_of_lt (by omega)]
  rw [← hback r, hmap, hback r']

theorem epochJson_ser_append_inj {e e' : UInt64} {s t : Bytes}
    (h : (epochJson e).ser ++ 44 :: s = (epochJson e').ser ++ 44 :: t) : e = e' ∧ s = t := by
  obtain ⟨he, hst⟩ := ser_natCast_append_inj h
  exact ⟨UInt64.toNat_inj.mp he, hst⟩

/-- A manifest is determined by its canonical bytes. -/
theorem Manifest.bytes_injective {m m' : Manifest} (h : m.bytes = m'.bytes) : m = m' := by
  simp only [Manifest.bytes, Manifest.json, Json.ser, serPairs, profilesJson, profileIds,
    List.map_cons, List.map_nil, List.append_assoc, List.append_cancel_left_eq,
    List.cons_append, List.cons.injEq, true_and] at h
  -- between two values stand only constants
  have peel := @List.append_cancel_left_eq UInt8
  obtain ⟨hlaw, h⟩ := Root.ser_json_append_inj h
  simp only [peel, List.cons.injEq, true_and] at h
  obtain ⟨hcomposition, h⟩ := Root.ser_json_append_inj h
  simp only [peel, List.cons.injEq, true_and] at h
  obtain ⟨hepoch, h⟩ := epochJson_ser_append_inj h
  simp only [peel, List.cons.injEq, true_and] at h
  obtain ⟨hparent, h⟩ := Root.ser_json_append_inj h
  simp only [peel, List.cons.injEq, true_and] at h
  obtain ⟨hconv, h⟩ := Root.ser_json_append_inj h
  simp only [peel, List.cons.injEq, true_and] at h
  obtain ⟨hdoc, h⟩ := Root.ser_json_append_inj h
  simp only [peel, List.cons.injEq, true_and] at h
  obtain ⟨hevent, h⟩ := Root.ser_json_append_inj h
  simp only [peel, List.cons.injEq, true_and] at h
  obtain ⟨habi, -⟩ := Root.ser_json_append_inj h
  refine Manifest.ext hlaw hcomposition hepoch hparent (funext fun p => ?_) habi
  cases p with
  | convPref => exact hconv
  | docTool => exact hdoc
  | eventSchema => exact hevent

/-- Without a collision on their bytes, two manifests with one root are one manifest. -/
theorem Manifest.eq_of_root {s : Set Bytes} (hsha : Set.InjOn sha256 s) {m m' : Manifest}
    (hm : m.bytes ∈ s) (hm' : m'.bytes ∈ s) (h : sha256Hex m.bytes = sha256Hex m'.bytes) :
    m = m' :=
  Manifest.bytes_injective (hsha hm hm' (sha256_eq_of_sha256Hex h))

end CoreTex
