import Mathlib.Data.List.ReduceOption
import Tss.Wire.Codec

/-!
# What `parseSchema` accepts

The fields of an accepted schema have distinct tags, in increasing order, and
each is well formed: an array of bytes has the length of its type, a map has
values of one kind that holds no map, and length options only where that kind
checks them.
-/

namespace Tss.Wire

open Fallible

section Schema

variable {ν γ : Type} {env : Env ν γ} {fs fs' : FieldSchema ν}

/-- A field of bytes whose type is an array has the length of the array. -/
def Env.FixesArray (env : Env ν γ) (fs : FieldSchema ν) : Prop :=
  fs.kind = .bytes → ∀ size elem, env.underlying fs.typ = .array size elem → fs.fixedLen = some size

/-- What an accepted field tag says of its field. -/
structure Env.WellFormed (env : Env ν γ) (fs : FieldSchema ν) : Prop where
  array : env.FixesArray fs
  map : fs.kind = .map → ∃ key value, env.underlying fs.typ = .map key value
  mapValue : fs.kind = .map → env.FixesArray fs.mapValue ∧ fs.mapValueKind ≠ .map
  /-- A map has length options only where its values check their length. -/
  lengths : fs.kind = .map → kindConsumesLength fs.mapValueKind = false →
    fs.fixedLen = none ∧ fs.maxBytes = none

theorem fixArrayLen_eq_ok {text : String} {size : Nat} (h : fs.fixArrayLen text size = .ok fs') :
    fs' = { fs with fixedLen := some size } := by
  rw [FieldSchema.fixArrayLen, seq_eq_ok] at h
  exact (Except.ok.inj h.2).symm

theorem fixesArray_of_init (h : env.initArrayField fs = .ok fs') : env.FixesArray fs' := by
  unfold Env.initArrayField at h
  split at h
  next n elem hkind htyp =>
    obtain rfl := fixArrayLen_eq_ok h
    intro _ size elem' htyp'
    obtain ⟨rfl, -⟩ := GoType.array.inj (htyp.symm.trans htyp')
    rfl
  next hother =>
    cases h
    intro hkind size elem htyp
    exact absurd htyp (hother size elem hkind)

/-- A map value is of a kind without maps inside. -/
theorem inferMapValueKind_ne_map {t : GoType ν} {kind : WireKind}
    (h : env.inferMapValueKind t = .ok kind) : kind ≠ .map := by
  rintro rfl
  unfold Env.inferMapValueKind at h
  dsimp only at h
  split at h
  · cases h
  · split at h <;> first | (unfold Env.requires at h; split at h <;> cases h) | cases h

theorem initMapSchema_eq_ok (h : env.initMapSchema fs = .ok fs') :
    ∃ key value kind, env.underlying fs.typ = .map key value ∧
      env.inferMapValueKind value = .ok kind ∧
      ¬ (value.isPointer ∧ kind ≠ .custom ∧ kind ≠ .record) ∧
      fs' = { fs with mapValueType := value, mapValueKind := kind } := by
  unfold Env.initMapSchema at h
  split at h
  next key value htyp =>
    simp only [bind_eq_ok, mapError_eq_ok, rejectIf_eq_ok] at h
    obtain ⟨_, -, kind, hkind, _, hpointer, h⟩ := h
    exact ⟨key, value, kind, htyp, hkind, hpointer, (Except.ok.inj h).symm⟩
  next => cases h

theorem GoType.indirectType_of_not_pointer {t : GoType ν} (h : ¬ t.isPointer = true) :
    t.indirectType = t := by
  cases t <;> first | rfl | exact absurd rfl h

/-- What `initMapField` adds to the field of a map. -/
theorem initMapField_eq_ok (hkind : fs.kind = .map) (h : env.initMapField fs = .ok fs') :
    fs'.kind = .map ∧ (∃ key value, env.underlying fs'.typ = .map key value) ∧
      env.FixesArray fs'.mapValue ∧ fs'.mapValueKind ≠ .map := by
  rw [Env.initMapField, if_pos hkind] at h
  obtain ⟨fs₁, hfs₁, h⟩ := bind_eq_ok.mp h
  obtain ⟨key, value, kind, htyp, hvalue, hpointer, rfl⟩ := initMapSchema_eq_ok hfs₁
  have hne := inferMapValueKind_ne_map hvalue
  dsimp only at h
  split at h
  next n elem harray =>
    obtain rfl := fixArrayLen_eq_ok h
    refine ⟨hkind, ⟨key, value, htyp⟩, ?_, hne⟩
    intro _ size elem' htyp'
    have hplain : ¬ value.isPointer = true := fun hp => hpointer ⟨hp, nofun, nofun⟩
    rw [GoType.indirectType_of_not_pointer hplain] at harray
    obtain ⟨rfl, -⟩ := GoType.array.inj (harray.symm.trans htyp')
    rfl
  next hother =>
    cases h
    refine ⟨hkind, ⟨key, value, htyp⟩, ?_, hne⟩
    intro hbytes size elem htyp'
    have hplain : ¬ value.isPointer = true := by
      intro hp
      simp only [FieldSchema.mapValue] at hbytes
      simp [hp, hbytes] at hpointer
    refine absurd ?_ (hother size elem hbytes)
    rw [GoType.indirectType_of_not_pointer hplain]
    exact htyp'

/-- An accepted field tag gives a well-formed field. -/
theorem wellFormed_of_parse {f : StructField ν} {tagStr : GoString}
    (h : env.parseFieldTag f tagStr = .ok fs) : env.WellFormed fs := by
  unfold Env.parseFieldTag at h
  dsimp only at h
  split at h
  next => cases h
  next tag _ =>
    simp only [bind_eq_ok, rejectIf_eq_ok] at h
    obtain ⟨_, -, ⟨kind, options⟩, -, fs₁, -, fs₂, harray, _, -, _, -, fs₃, hmap, _, hoptions, _, -, h⟩ :=
      h
    obtain rfl := Except.ok.inj h
    have hfixes := fixesArray_of_init harray
    simp only [FieldSchema.validateFieldOptions, seq_eq_ok, rejectIf_eq_ok] at hoptions
    obtain ⟨hlen, hbytes, -⟩ := hoptions
    have hlengths : fs₃.kind = .map → kindConsumesLength fs₃.mapValueKind = false →
        fs₃.fixedLen = none ∧ fs₃.maxBytes = none := by
      intro hkind hconsumes
      simp only [FieldSchema.kindSupportsFixedLen, FieldSchema.kindSupportsMaxBytes, hkind,
        hconsumes] at hlen hbytes
      exact ⟨by simpa using hlen, by simpa using hbytes⟩
    by_cases hkind : fs₂.kind = .map
    · obtain ⟨hkind', htyp, hvalue⟩ := initMapField_eq_ok hkind hmap
      exact ⟨fun hbytes => absurd (hkind'.symm.trans hbytes) nofun, fun _ => htyp, fun _ => hvalue,
        hlengths⟩
    · rw [Env.initMapField, if_neg hkind] at hmap
      cases hmap
      exact ⟨hfixes, fun h => absurd h hkind, fun h => absurd h hkind, fun h => absurd h hkind⟩

theorem parseFields_eq_ok {seen : List UInt16} {fields : List (StructField ν)}
    {schema : List (FieldSchema ν)} (h : env.parseFields seen fields = .ok schema) :
    (∀ fs ∈ schema, env.WellFormed fs ∧ fs.tag ∉ seen) ∧ schema.Pairwise (·.tag ≠ ·.tag) := by
  induction fields generalizing seen schema with
  | nil =>
    cases h
    exact ⟨by simp, .nil⟩
  | cons f fields ih =>
    unfold Env.parseFields at h
    split at h
    next =>
      split at h
      next => exact ih h
      next => cases h
    next => exact ih h
    next =>
      split at h
      next => exact ih h
      next =>
        simp only [bind_eq_ok, mapError_eq_ok, rejectIf_eq_ok] at h
        obtain ⟨fs, hfs, _, hseen, rest, hrest, h⟩ := h
        cases h
        obtain ⟨hall, hpairs⟩ := ih hrest
        refine ⟨?_, List.pairwise_cons.mpr ⟨?_, hpairs⟩⟩
        · intro fs' hfs'
          rcases List.mem_cons.mp hfs' with rfl | hfs'
          · exact ⟨wellFormed_of_parse hfs, hseen⟩
          · exact ⟨(hall fs' hfs').1, fun hmem => (hall fs' hfs').2 (List.mem_cons_of_mem _ hmem)⟩
        · intro fs' hfs' hsame
          exact (hall fs' hfs').2 (hsame ▸ List.mem_cons_self)

/-- The fields of an accepted schema. -/
theorem getSchema_eq_ok {n : ν} {schema : List (FieldSchema ν)} (h : env.getSchema n = .ok schema) :
    (∀ fs ∈ schema, env.WellFormed fs) ∧ schema.Pairwise (·.tag < ·.tag) := by
  unfold Env.getSchema at h
  split at h
  next fields _ =>
    simp only [Env.parseSchema, bind_eq_ok] at h
    obtain ⟨parsed, hparsed, _, -, h⟩ := h
    cases h
    obtain ⟨hall, hpairs⟩ := parseFields_eq_ok hparsed
    have hperm := List.perm_insertionSort (fun a b : FieldSchema ν => a.tag ≤ b.tag) parsed
    refine ⟨fun fs hfs => (hall fs (hperm.mem_iff.mp hfs)).1, ?_⟩
    -- sorted and distinct
    have hdistinct := (hperm.pairwise_iff fun {a b} hab => Ne.symm hab).mpr hpairs
    have : Std.Total (fun a b : FieldSchema ν => a.tag ≤ b.tag) :=
      ⟨fun a b => UInt16.le_total a.tag b.tag⟩
    have : IsTrans (FieldSchema ν) (fun a b => a.tag ≤ b.tag) :=
      ⟨fun a b c => UInt16.le_trans⟩
    have hsorted := List.pairwise_insertionSort (fun a b : FieldSchema ν => a.tag ≤ b.tag) parsed
    exact (hsorted.and hdistinct).imp fun hab => UInt16.lt_of_le_of_ne hab.1 hab.2
  next => cases h

/-! ## Matching the received fields -/

/-- The received field that is matched with a field of the schema. -/
def FieldSchema.Matches (fs : FieldSchema ν) : Option Field → Prop
  | none => fs.optional = true
  | some field => field.tag = fs.tag

variable {schema : List (FieldSchema ν)} {fields : List Field} {matched : List (Option Field)}

/-- What the merge loop returns: every received field, in its place. -/
theorem matchFields_eq_ok {context : String} {i j : Nat}
    (h : FieldSchema.matchFields context i j schema fields = .ok matched) :
    List.Forall₂ FieldSchema.Matches schema matched ∧ matched.reduceOption = fields := by
  induction schema generalizing i j fields matched with
  | nil =>
    cases fields with
    | nil =>
      cases h
      exact ⟨.nil, rfl⟩
    | cons => cases h
  | cons fs schema ih =>
    have absent : ∀ {i j}, fs.optional = true →
        (do let rest ← FieldSchema.matchFields context i j schema fields
            pure (none :: rest)) = Except.ok matched →
        List.Forall₂ FieldSchema.Matches (fs :: schema) matched ∧ matched.reduceOption = fields := by
      intro i j hoptional hbind
      obtain ⟨rest, hrest, heq⟩ := bind_eq_ok.mp hbind
      cases heq
      obtain ⟨hall, hfields⟩ := ih hrest
      exact ⟨.cons hoptional hall, by rw [List.reduceOption_cons_of_none, hfields]⟩
    cases fields with
    | nil =>
      rw [FieldSchema.matchFields] at h
      split at h
      next hoptional => exact absent hoptional h
      next => cases h
    | cons field fields =>
      rw [FieldSchema.matchFields] at h
      split at h
      next htag =>
        obtain ⟨rest, hrest, heq⟩ := bind_eq_ok.mp h
        cases heq
        obtain ⟨hall, hfields⟩ := ih hrest
        exact ⟨.cons htag hall, by rw [List.reduceOption_cons_of_some, hfields]⟩
      next =>
        split at h
        next hoptional => exact absent hoptional.2 h
        next => split at h <;> cases h

theorem sublist_of_matches (h : List.Forall₂ FieldSchema.Matches schema matched) :
    (matched.reduceOption.map (·.tag)).Sublist (schema.map (·.tag)) ∧
      ∀ fs ∈ schema, fs.optional = false → fs.tag ∈ matched.reduceOption.map (·.tag) := by
  induction h with
  | nil => simp
  | @cons fs m schema matched hm _ ih =>
    obtain ⟨hsub, hrequired⟩ := ih
    cases m with
    | none =>
      rw [List.reduceOption_cons_of_none]
      refine ⟨hsub.cons _, List.forall_mem_cons.mpr ⟨?_, hrequired⟩⟩
      intro hnot
      rw [hm] at hnot
      cases hnot
    | some field =>
      have htag : field.tag = fs.tag := hm
      rw [List.reduceOption_cons_of_some, List.map_cons, List.map_cons, htag]
      refine ⟨hsub.cons_cons _, List.forall_mem_cons.mpr ⟨fun _ => List.mem_cons_self, ?_⟩⟩
      intro fs' hfs' hnot
      exact List.mem_cons_of_mem _ (hrequired fs' hfs' hnot)

/-- The loop does not fail when only optional tags are missing. -/
theorem exists_matchFields (htags : schema.Pairwise (·.tag < ·.tag))
    (hsub : (fields.map (·.tag)).Sublist (schema.map (·.tag)))
    (hrequired : ∀ fs ∈ schema, fs.optional = false → fs.tag ∈ fields.map (·.tag))
    (context : String) (i j : Nat) :
    ∃ matched, FieldSchema.matchFields context i j schema fields = .ok matched := by
  induction schema generalizing i j fields with
  | nil =>
    obtain rfl : fields = [] := List.map_eq_nil_iff.mp (List.sublist_nil.mp hsub)
    exact ⟨[], rfl⟩
  | cons fs schema ih =>
    obtain ⟨hbefore, htags⟩ := List.pairwise_cons.mp htags
    obtain ⟨hhead, htail⟩ := List.forall_mem_cons.mp hrequired
    cases fields with
    | nil =>
      have hoptional : fs.optional = true := by
        by_contra hnot
        cases hhead (Bool.not_eq_true _ ▸ hnot)
      have hempty : (([] : List Field).map (·.tag)).Sublist (schema.map (·.tag)) := List.nil_sublist _
      obtain ⟨rest, hrest⟩ := ih htags hempty htail (i + 1) j
      exact ⟨none :: rest, by rw [FieldSchema.matchFields, if_pos hoptional, hrest]; rfl⟩
    | cons field fields =>
      rw [List.map_cons, List.map_cons] at hsub
      by_cases htag : field.tag = fs.tag
      · rw [htag, List.cons_sublist_cons] at hsub
        have hlater : ∀ fs' ∈ schema, fs'.optional = false → fs'.tag ∈ fields.map (·.tag) := by
          intro fs' hfs' hnot
          have hne : fs'.tag ≠ field.tag := by
            rw [htag]
            exact (UInt16.ne_of_lt (hbefore fs' hfs')).symm
          exact (List.mem_cons.mp (htail fs' hfs' hnot)).resolve_left hne
        obtain ⟨rest, hrest⟩ := ih htags hsub hlater (i + 1) (j + 1)
        exact ⟨some field :: rest, by rw [FieldSchema.matchFields, if_pos htag, hrest]; rfl⟩
      · -- the field of the schema is skipped, so its tag does not come later either
        have hskip : ((field :: fields).map (·.tag)).Sublist (schema.map (·.tag)) := by
          obtain hskip | ⟨rest, heq, -⟩ := List.sublist_cons_iff.mp hsub
          · exact hskip
          · exact absurd (List.cons.inj heq).1 htag
        have hlt : ∀ tag ∈ (field :: fields).map (·.tag), fs.tag < tag := by
          intro tag hmem
          obtain ⟨fs', hfs', rfl⟩ := List.mem_map.mp (hskip.subset hmem)
          exact hbefore fs' hfs'
        have hoptional : fs.optional = true := by
          by_contra hnot
          exact UInt16.lt_irrefl _ (hlt _ (hhead (Bool.not_eq_true _ ▸ hnot)))
        obtain ⟨rest, hrest⟩ := ih htags hskip htail (i + 1) j
        refine ⟨none :: rest, ?_⟩
        rw [FieldSchema.matchFields, if_neg htag,
          if_pos ⟨hlt field.tag List.mem_cons_self, hoptional⟩, hrest]
        rfl

/-- A field of the schema is matched with the received field of its tag. -/
theorem matched_eq_find (htags : schema.Pairwise (·.tag < ·.tag))
    (h : List.Forall₂ FieldSchema.Matches schema matched) :
    matched = schema.map fun fs => matched.reduceOption.find? (·.tag = fs.tag) := by
  induction h with
  | nil => rfl
  | @cons fs m schema matched hm hrest ih =>
    obtain ⟨hbefore, htags⟩ := List.pairwise_cons.mp htags
    have hlater : ∀ field ∈ matched.reduceOption, fs.tag < field.tag := by
      intro field hfield
      have hmem := (sublist_of_matches hrest).1.subset (List.mem_map_of_mem hfield)
      obtain ⟨fs', hfs', htag⟩ := List.mem_map.mp hmem
      rw [← htag]
      exact hbefore fs' hfs'
    cases m with
    | none =>
      rw [List.reduceOption_cons_of_none, List.map_cons, ← ih htags]
      congr 1
      apply Eq.symm
      rw [List.find?_eq_none]
      intro field hfield
      simpa using (UInt16.ne_of_lt (hlater field hfield)).symm
    | some field =>
      have htag : field.tag = fs.tag := hm
      rw [List.reduceOption_cons_of_some, List.map_cons, List.find?_cons_of_pos (by simpa using htag)]
      congr 1
      nth_rewrite 1 [ih htags]
      apply List.map_congr_left
      intro fs' hfs'
      have hne : ¬ field.tag = fs'.tag := by
        rw [htag]
        exact UInt16.ne_of_lt (hbefore fs' hfs')
      rw [List.find?_cons_of_neg (by simpa using hne)]

/-- Matching succeeds exactly on the tags of the schema without some of the optional ones, and
pairs each received field with the field of its tag. -/
theorem matchFields_exact {n : ν} (hschema : env.getSchema n = .ok schema) (context : String) :
    ((∃ matched, FieldSchema.matchFields context 0 0 schema fields = .ok matched) ↔
      (fields.map (·.tag)).Sublist (schema.map (·.tag)) ∧
        ∀ fs ∈ schema, fs.optional = false → fs.tag ∈ fields.map (·.tag)) ∧
    ∀ matched, FieldSchema.matchFields context 0 0 schema fields = .ok matched →
      matched.reduceOption = fields ∧
        matched = schema.map fun fs => fields.find? (·.tag = fs.tag) := by
  have htags := (getSchema_eq_ok hschema).2
  refine ⟨⟨?_, ?_⟩, ?_⟩
  · rintro ⟨matched, h⟩
    obtain ⟨hall, rfl⟩ := matchFields_eq_ok h
    exact sublist_of_matches hall
  · rintro ⟨hsub, hrequired⟩
    exact exists_matchFields htags hsub hrequired context 0 0
  · intro matched h
    obtain ⟨hall, rfl⟩ := matchFields_eq_ok h
    exact ⟨rfl, matched_eq_find htags hall⟩

end Schema

/-- A message with a required and an optional field. -/
def optionalSample : Env Unit Unit := fun _ =>
  { pkg := "sample"
    goName := "Optional"
    underlying := .struct [⟨"Count", true, .uint32, some (lit "1,u32")⟩,
      ⟨"Weight", true, .pointer .bigInt, some (lit "2,bigint,optional")⟩]
    message := some ⟨lit "sample.optional", 1⟩
    marshaler := none
    unmarshaler := none
    validate := fun _ => .ok () }

/-- The fields of the message. -/
def optionalFields : List (FieldSchema Unit) :=
  [{ tag := 1, name := "Count", kind := .u32, typ := .uint32 },
    { tag := 2, name := "Weight", kind := .bigInt, typ := .pointer .bigInt, optional := true }]

theorem matchFields_exact_optionalSample :
    ∃ matched, FieldSchema.matchFields "wire Optional" 0 0 optionalFields [⟨1, be32 7⟩] =
      .ok matched := by
  have hschema : optionalSample.getSchema () = .ok optionalFields := rfl
  apply (matchFields_exact hschema _).1.mpr
  decide

end Tss.Wire
