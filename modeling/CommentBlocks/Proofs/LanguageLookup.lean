import CommentBlocks.Language.Registry
import Mathlib.Data.List.Basic

/-!
# Looking languages up

A registry is two indexes, filled profile by profile: each profile takes the identifier and the
extensions that are still free. What one profile takes is what it wants and nobody has
(`getElem?_claimExtensions`), so a key belongs to the first profile that wants it
(`getElem?_foldl_claim`), and looking a key up is searching the list of profiles.

An extension is looked up as it is written and then in lower case. If all profiles list theirs in
lower case, the first look-up finds nothing that the second would not find
(`forExtension?_of_lower`). Then it does not matter that a path keeps the case of its extension
while an origin does not.
-/

namespace CommentBlocks

/-! ## Lower case -/

theorem toLower_toLower_char (c : Char) : c.toLower.toLower = c.toLower := by
  by_cases h : c.val ≥ 'A'.val ∧ c.val ≤ 'Z'.val
  · have hlower : c.toLower.val = c.val + 32 := congrArg Char.val (dif_pos h)
    -- small letters come thirty-two code points after the capitals, of which there are fewer
    have hsmall : ¬(c.toLower.val ≥ 'A'.val ∧ c.toLower.val ≤ 'Z'.val) := by
      have hA : 'A'.val.toNat = 65 := rfl
      have hZ : 'Z'.val.toNat = 90 := rfl
      simp only [hlower, ge_iff_le, UInt32.le_iff_toNat_le, UInt32.toNat_add, hA, hZ,
        UInt32.toNat_ofNat] at h ⊢
      omega
    exact dif_neg hsmall
  · have hsame : c.toLower = c := dif_neg h
    rw [hsame, hsame]

theorem toList_toLower (s : String) : s.toLower.toList = s.toList.map Char.toLower :=
  String.toList_map

theorem toLower_toLower (s : String) : s.toLower.toLower = s.toLower := by
  apply String.toList_inj.mp
  rw [toList_toLower, toList_toLower, List.map_map]
  exact List.map_congr_left fun c _ ↦ toLower_toLower_char c

theorem toLower_append (s t : String) : (s ++ t).toLower = s.toLower ++ t.toLower := by
  apply String.toList_inj.mp
  rw [toList_toLower, String.toList_append, List.map_append, String.toList_append, toList_toLower,
    toList_toLower]

namespace Registry

/-! ## Filling an index -/

section Index

variable (index : Std.HashMap String Profile)

theorem getElem?_insertIfNew_or (wanted key : String) (profile : Profile) :
    (index.insertIfNew wanted profile)[key]?
      = index[key]?.or (if key = wanted then some profile else none) := by
  simp only [Std.HashMap.getElem?_insertIfNew, beq_iff_eq]
  by_cases hkey : wanted = key
  · by_cases htaken : wanted ∈ index
    · have howner : index[key]?.isSome = true :=
        hkey ▸ Std.HashMap.isSome_getElem?_iff_mem.mpr htaken
      rw [if_neg fun h ↦ h.2 htaken, Option.or_of_isSome howner]
    · rw [if_pos ⟨hkey, htaken⟩, if_pos hkey.symm, Std.HashMap.getElem?_eq_none (hkey ▸ htaken),
        Option.none_or]
  · rw [if_neg fun h ↦ hkey h.1, if_neg (Ne.symm hkey), Option.or_none]

/-- A profile takes the extensions that it lists and that are still free. -/
theorem getElem?_claimExtensions (profile : Profile) (key : String) :
    (claimExtensions index profile)[key]?
      = index[key]?.or (if key ∈ profile.extensions then some profile else none) := by
  unfold claimExtensions
  induction profile.extensions generalizing index with
  | nil => rw [List.foldl_nil, if_neg List.not_mem_nil, Option.or_none]
  | cons extension extensions ih =>
    rw [List.foldl_cons, ih, getElem?_insertIfNew_or, Option.or_assoc]
    congr 1
    by_cases hkey : key = extension
    · rw [if_pos hkey, if_pos (List.mem_cons.mpr (Or.inl hkey)), Option.some_or]
    · simp only [List.mem_cons, hkey, false_or, if_false, Option.none_or]

/-- **A key belongs to the first profile that wants it.** -/
theorem getElem?_foldl_claim
    {claim : Std.HashMap String Profile → Profile → Std.HashMap String Profile} {key : String}
    {wants : Profile → Prop} [DecidablePred wants]
    (hclaim : ∀ index profile,
      (claim index profile)[key]? = index[key]?.or (if wants profile then some profile else none))
    (profiles : List Profile) :
    (profiles.foldl claim index)[key]? = index[key]?.or (profiles.find? (wants ·)) := by
  induction profiles generalizing index with
  | nil => rw [List.foldl_nil, List.find?_nil, Option.or_none]
  | cons profile profiles ih =>
    rw [List.foldl_cons, ih, hclaim, Option.or_assoc, List.find?_cons]
    by_cases hwants : wants profile
    · rw [if_pos hwants, decide_eq_true hwants, Option.some_or]
    · rw [if_neg hwants, decide_eq_false hwants, Option.none_or]

end Index

/-! ## Looking up -/

variable (profiles : List Profile)

theorem get?_ofProfiles (id : String) :
    (ofProfiles profiles).get? id = profiles.find? (·.id = id) := by
  have hclaim : ∀ (index : Std.HashMap String Profile) (profile : Profile),
      (index.insertIfNew profile.id profile)[id]?
        = index[id]?.or (if profile.id = id then some profile else none) := by
    intro index profile
    rw [getElem?_insertIfNew_or]
    simp only [eq_comm]
  have hindex := getElem?_foldl_claim ∅ hclaim profiles
  rw [Std.HashMap.getElem?_empty, Option.none_or] at hindex
  exact hindex

theorem getElem?_byExtension_ofProfiles (extension : String) :
    (ofProfiles profiles).byExtension[extension]?
      = profiles.find? (extension ∈ ·.extensions) := by
  have hindex := getElem?_foldl_claim ∅
    (fun index profile ↦ getElem?_claimExtensions index profile extension) profiles
  rw [Std.HashMap.getElem?_empty, Option.none_or] at hindex
  exact hindex

theorem forExtension?_ofProfiles (extension : String) :
    (ofProfiles profiles).forExtension? extension
      = if ∃ profile ∈ profiles, extension ∈ profile.extensions then
          profiles.find? (extension ∈ ·.extensions)
        else profiles.find? (extension.toLower ∈ ·.extensions) := by
  rw [forExtension?, getElem?_byExtension_ofProfiles, getElem?_byExtension_ofProfiles]
  split
  · next hlisted =>
    obtain ⟨profile, hprofile, hextension⟩ := hlisted
    refine Option.or_of_isSome (List.find?_isSome.mpr ?_)
    exact ⟨profile, hprofile, decide_eq_true hextension⟩
  · next hunlisted =>
    have hnone : profiles.find? (extension ∈ ·.extensions) = none := by
      refine List.find?_eq_none.mpr ?_
      intro profile hprofile hextension
      exact hunlisted ⟨profile, hprofile, of_decide_eq_true hextension⟩
    rw [hnone, Option.none_or]

variable {profiles}

/-- **If all extensions are listed in lower case, that is how they are looked up.** -/
theorem forExtension?_of_lower
    (hlower : ∀ profile ∈ profiles, ∀ extension ∈ profile.extensions,
      extension.toLower = extension) (extension : String) :
    (ofProfiles profiles).forExtension? extension
      = profiles.find? (extension.toLower ∈ ·.extensions) := by
  rw [forExtension?_ofProfiles]
  split
  · next hlisted =>
    obtain ⟨profile, hprofile, hextension⟩ := hlisted
    rw [hlower profile hprofile extension hextension]
  · rfl

/-- **A registry finds what was declared first.** The profile of an identifier is the first listed
with it. The profile of an extension is the first that lists it as it is written, or if there is
none the first that lists it in lower case. If all profiles list their extensions in lower case,
then extensions that differ only in case have the same profile, and the profile of a path is that of
the extension of the document that the path names. -/
theorem finds_first_declared (profiles : List Profile) :
    let registry := ofProfiles profiles
    (∀ id, registry.get? id = profiles.find? (·.id = id))
      ∧ (∀ extension, registry.forExtension? extension
        = if ∃ profile ∈ profiles, extension ∈ profile.extensions then
            profiles.find? (extension ∈ ·.extensions)
          else profiles.find? (extension.toLower ∈ ·.extensions))
      ∧ ((∀ profile ∈ profiles, ∀ extension ∈ profile.extensions,
          extension.toLower = extension) →
        (∀ x y : String, x.toLower = y.toLower →
          registry.forExtension? x = registry.forExtension? y)
        ∧ ∀ name : String,
          registry.forPath? name = (Origin.mk name).extension?.bind registry.forExtension?) := by
  intro registry
  refine ⟨get?_ofProfiles profiles, forExtension?_ofProfiles profiles, ?_⟩
  intro hlower
  have hsame : ∀ x y : String, x.toLower = y.toLower →
      registry.forExtension? x = registry.forExtension? y := by
    intro x y hxy
    rw [forExtension?_of_lower hlower, forExtension?_of_lower hlower, hxy]
  refine ⟨hsame, ?_⟩
  intro name
  rw [forPath?, Origin.extension?, Option.bind_map]
  congr 1
  funext extension
  refine hsame _ _ ?_
  rw [toLower_append, toLower_append, toLower_toLower]

/-- Two profiles that share an identifier and an extension, asked for in capitals. -/
theorem finds_first_declared_in_capitals :
    let first : Profile := ⟨"x", "First", [".x", ".y", ".x"], []⟩
    let second : Profile := ⟨"x", "Second", [".y", ".z"], []⟩
    let registry := ofProfiles [first, second]
    (∀ profile ∈ [first, second], ∀ extension ∈ profile.extensions, extension.toLower = extension)
      ∧ registry.get? "x" = some first
      ∧ registry.forExtension? ".Y" = some first
      ∧ registry.forExtension? ".Z" = registry.forExtension? ".z"
      ∧ registry.forPath? "y.y/.Main.Z" = some second := by
  intro first second registry
  have hlower : ∀ profile ∈ [first, second], ∀ extension ∈ profile.extensions,
      extension.toLower = extension := by
    decide +kernel
  obtain ⟨hid, hextension, hlowered⟩ := finds_first_declared [first, second]
  obtain ⟨hsame, hpath⟩ := hlowered hlower
  have hcapital : ".Z".toLower = ".z" := by decide +kernel
  have hsmall : ".z".toLower = ".z" := by decide +kernel
  have hname : (Origin.mk "y.y/.Main.Z").extension? = some ".z" := by decide +kernel
  refine ⟨hlower, (hid "x").trans rfl, ?_, hsame ".Z" ".z" (hcapital.trans hsmall.symm), ?_⟩
  · exact (hextension ".Y").trans (by decide +kernel)
  · refine (hpath "y.y/.Main.Z").trans ?_
    rw [hname, Option.bind_some]
    exact (hextension ".z").trans (by decide +kernel)

end Registry

end CommentBlocks
