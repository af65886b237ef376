import Mathlib.Data.Finmap
import Mathlib.Data.Finset.Card
import Mathlib.Data.Finset.Lattice.Fold
import Mathlib.Tactic.Common

/-!
# Finite maps

A map of an imperative program, read as Mathlib's `Finmap` with a
constant value type: extensional, so two maps are equal as soon as their
lookups agree, and without an iteration order. This module adds what a
`range` loop over a map needs and `Finmap` does not have: `filter`,
`mapVals`, the meaning of `any`, inverting a map into an index, and
counting the entries a loop counts.
-/

namespace Tss

/-- `map[α]β`. -/
abbrev FMap (α β : Type) := Finmap (fun _ : α => β)

namespace FMap

variable {α β γ : Type} [DecidableEq α]

variable {m : FMap α β}

theorem ext_some {n : FMap α β} (h : ∀ x b, m.lookup x = some b ↔ n.lookup x = some b) :
    m = n :=
  Finmap.ext_lookup fun x => Option.ext (h x)

theorem lookup_insert_ite (m : FMap α β) (a x : α) (b : β) :
    (m.insert a b).lookup x = if x = a then some b else m.lookup x := by
  split
  · next h => subst h; exact Finmap.lookup_insert m
  · next h => exact Finmap.lookup_insert_of_ne m h

theorem lookup_erase_ite (m : FMap α β) (a x : α) :
    (m.erase a).lookup x = if x = a then none else m.lookup x := by
  split
  · next h => subst h; exact Finmap.lookup_erase x m
  · next h => exact Finmap.lookup_erase_ne h

theorem lookup_insert_eq_some {a x : α} {b y : β} :
    (m.insert a b).lookup x = some y ↔ (x = a ∧ b = y) ∨ (x ≠ a ∧ m.lookup x = some y) := by
  rw [lookup_insert_ite]
  split <;> simp [*]

/-- A property of the entry written and of the old ones is one of every entry. -/
@[elab_as_elim] theorem insert_cases {P : α → β → Prop} {a x : α} {b y : β}
    (h : (m.insert a b).lookup x = some y) (hnew : P a b)
    (hold : ∀ {x y}, m.lookup x = some y → P x y) : P x y := by
  rcases lookup_insert_eq_some.mp h with ⟨rfl, rfl⟩ | ⟨-, h⟩
  · exact hnew
  · exact hold h

/-- Writing at a key that was free leaves the old entries. -/
theorem lookup_insert_of_none {a x : α} {b y : β} (ha : m.lookup a = none)
    (hx : m.lookup x = some y) : (m.insert a b).lookup x = some y := by
  refine lookup_insert_eq_some.mpr (.inr ⟨?_, hx⟩)
  rintro rfl
  cases ha.symm.trans hx

theorem lookup_insert_ne {a x : α} {b y : β} (h : x ≠ a) (hx : m.lookup x = some y) :
    (m.insert a b).lookup x = some y := (Finmap.lookup_insert_of_ne m h).trans hx

/-- An entry is the one at `a` or has another key. -/
@[elab_as_elim] theorem entry_cases {P : α → β → Prop} {a x : α} {b y : β}
    (hx : m.lookup x = some y) (ha : m.lookup a = some b) (hat : P a b) (hother : x ≠ a → P x y) :
    P x y := by
  by_cases h : x = a
  · subst h
    obtain rfl := Option.some.inj (ha.symm.trans hx)
    exact hat
  · exact hother h

theorem lookup_erase_eq_some {a x : α} {y : β} :
    (m.erase a).lookup x = some y ↔ x ≠ a ∧ m.lookup x = some y := by
  rw [lookup_erase_ite]
  split <;> simp [*]

theorem insert_erase (m : FMap α β) (a : α) (b : β) : (m.erase a).insert a b = m.insert a b := by
  refine Finmap.ext_lookup fun x => ?_
  rw [lookup_insert_ite, lookup_insert_ite, lookup_erase_ite]
  split <;> rfl

/-- A loop that writes an entry for each key of a list. -/
theorem lookup_foldl_insert (f : α → β) (l : List α) (m : FMap α β) (x : α) :
    (l.foldl (fun m a => m.insert a (f a)) m).lookup x =
      if x ∈ l then some (f x) else m.lookup x := by
  induction l generalizing m with
  | nil => simp
  | cons a l ih =>
    rw [List.foldl_cons, ih, lookup_insert_ite]
    by_cases hl : x ∈ l
    · simp [hl]
    · by_cases ha : x = a
      · subst ha
        simp
      · simp [hl, ha]

theorem mem_iff_lookup_ne_none {a : α} : a ∈ m ↔ m.lookup a ≠ none := by
  rw [Ne, Finmap.lookup_eq_none, not_not]

theorem notMem_iff_lookup {a : α} : a ∉ m ↔ m.lookup a = none :=
  Finmap.lookup_eq_none.symm

theorem mem_keys_iff {a : α} : a ∈ m.keys ↔ ∃ b, m.lookup a = some b := by
  rw [Finmap.mem_keys, Finmap.mem_iff]

/-! ## Loops that keep or rewrite entries -/

/-- The entries a loop keeps. -/
def filter (p : α → β → Bool) (m : FMap α β) : FMap α β :=
  ⟨m.entries.filter fun e => p e.1 e.2, Multiset.nodup_keys.mp
    (Multiset.nodup_of_le (Multiset.map_le_map (Multiset.filter_le _ _))
      (Multiset.nodup_keys.mpr m.nodupKeys))⟩

/-- Every entry's value rewritten in place. -/
def mapVals (f : α → β → γ) (m : FMap α β) : FMap α γ :=
  ⟨m.entries.map fun e => ⟨e.1, f e.1 e.2⟩, Multiset.nodup_keys.mp (by
    have h := Multiset.nodup_keys.mpr m.nodupKeys
    rw [Multiset.keys] at h ⊢
    rwa [Multiset.map_map])⟩

theorem lookup_filter (p : α → β → Bool) (m : FMap α β) (x : α) :
    (m.filter p).lookup x = (m.lookup x).filter (p x) := by
  apply Option.ext
  intro b
  rw [Finmap.lookup_eq_some_iff, Option.filter_eq_some_iff, Finmap.lookup_eq_some_iff]
  simp [filter]

theorem lookup_mapVals (f : α → β → γ) (m : FMap α β) (x : α) :
    (m.mapVals f).lookup x = (m.lookup x).map (f x) := by
  apply Option.ext
  intro c
  rw [Finmap.lookup_eq_some_iff, Option.map_eq_some_iff]
  simp only [mapVals, Multiset.mem_map, Finmap.lookup_eq_some_iff]
  constructor
  · rintro ⟨⟨y, b⟩, hb, he⟩
    cases he
    exact ⟨b, hb, rfl⟩
  · rintro ⟨b, hb, rfl⟩
    exact ⟨⟨x, b⟩, hb, rfl⟩

variable {p : α → β → Bool}

theorem lookup_filter_eq_some {x : α} {b : β} :
    (m.filter p).lookup x = some b ↔ m.lookup x = some b ∧ p x b = true := by
  rw [lookup_filter, Option.filter_eq_some_iff]

/-! ## Maps given by a function on finitely many keys -/

/-- The map that has `f a`, if any, at each of the keys. -/
def tabulate (keys : Finset α) (f : α → Option β) : FMap α β :=
  ⟨keys.val.filterMap fun a => (f a).map fun b => ⟨a, b⟩, Multiset.nodup_keys.mp (by
    rw [Multiset.keys, Multiset.map_filterMap]
    refine (Multiset.Nodup.filterMap _ ?_ keys.nodup)
    intro a a' x hx hx'
    obtain ⟨b, hb, rfl⟩ : ∃ b, f a = some b ∧ a = x := by simpa using hx
    obtain ⟨b', hb', he⟩ : ∃ b, f a' = some b ∧ a' = a := by simpa using hx'
    exact he.symm)⟩

theorem lookup_tabulate_eq_some {keys : Finset α} {f : α → Option β} {a : α} {b : β} :
    (tabulate keys f).lookup a = some b ↔ a ∈ keys ∧ f a = some b := by
  rw [Finmap.lookup_eq_some_iff]
  simp only [tabulate, Multiset.mem_filterMap, Finset.mem_val, Option.map_eq_some_iff,
    Sigma.mk.injEq]
  constructor
  · rintro ⟨a', ha', b', hb', rfl, hb⟩
    exact ⟨ha', by rw [hb', eq_of_heq hb]⟩
  · rintro ⟨ha, hb⟩
    exact ⟨a, ha, b, hb, rfl, HEq.rfl⟩

/-- The map with the given keys and the values of a function. -/
def ofKeys (keys : Finset α) (f : α → β) : FMap α β := tabulate keys fun a => some (f a)

@[simp] theorem lookup_ofKeys (keys : Finset α) (f : α → β) (a : α) :
    (ofKeys keys f).lookup a = if a ∈ keys then some (f a) else none := by
  apply Option.ext
  intro b
  rw [ofKeys, lookup_tabulate_eq_some]
  by_cases ha : a ∈ keys <;> simp [ha]

@[simp] theorem keys_ofKeys (keys : Finset α) (f : α → β) : (ofKeys keys f).keys = keys := by
  ext a
  rw [mem_keys_iff]
  by_cases ha : a ∈ keys <;> simp [ha]

theorem ofKeys_congr {keys : Finset α} {f g : α → β} (h : ∀ a ∈ keys, f a = g a) :
    ofKeys keys f = ofKeys keys g := by
  apply ext_some
  intro a b
  by_cases ha : a ∈ keys
  · simp [ha, h a ha]
  · simp [ha]

/-- A function's own value extends the keys. -/
theorem insert_ofKeys (keys : Finset α) (f : α → β) (a : α) :
    (ofKeys keys f).insert a (f a) = ofKeys (insert a keys) f := by
  apply ext_some
  intro x b
  rw [lookup_insert_ite, lookup_ofKeys, lookup_ofKeys]
  by_cases hx : x = a
  · simp [hx]
  · simp [hx]

@[simp] theorem ofKeys_empty (f : α → β) : ofKeys ∅ f = ∅ := by
  apply ext_some
  intro a b
  simp

/-! ## Loops that look for an entry -/

theorem any_iff :
    m.any p = true ↔ ∃ a b, m.lookup a = some b ∧ p a b = true := by
  have : RightCommutative fun (d : Bool) (e : Σ _ : α, β) => d || p e.1 e.2 :=
    ⟨fun d e e' => Bool.or_right_comm d (p e.1 e.2) (p e'.1 e'.2)⟩
  have hfold : ∀ (es : Multiset (Σ _ : α, β)) (acc : Bool),
      es.foldl (fun d e => d || p e.1 e.2) acc = true ↔
        acc = true ∨ ∃ e ∈ es, p e.1 e.2 = true := by
    intro es
    induction es using Multiset.induction_on with
    | empty => simp
    | cons e es ih => intro acc; simp [ih, or_assoc]
  refine (hfold m.entries false).trans ?_
  simp only [Bool.false_eq_true, false_or]
  constructor
  · rintro ⟨⟨a, b⟩, hb, hp⟩
    exact ⟨a, b, Finmap.lookup_eq_some_iff.mpr hb, hp⟩
  · rintro ⟨a, b, hb, hp⟩
    exact ⟨⟨a, b⟩, Finmap.lookup_eq_some_iff.mp hb, hp⟩

theorem any_eq_false :
    m.any p = false ↔ ∀ a b, m.lookup a = some b → p a b = false := by
  rw [← Bool.not_eq_true, any_iff]
  simp

/-! ## Loops that count entries -/

/-- `len(m)`. -/
def size (m : FMap α β) : Nat := m.keys.card

/-- How many entries satisfy `p`: a counter a loop increments. -/
def count (p : α → β → Bool) (m : FMap α β) : Nat := (m.filter p).size

theorem mem_keys_filter {a : α} :
    a ∈ (m.filter p).keys ↔ ∃ b, m.lookup a = some b ∧ p a b = true := by
  simp [mem_keys_iff, lookup_filter, Option.filter_eq_some_iff]

/-- A count is one when exactly one key satisfies the predicate. -/
theorem count_eq_one {a : α} {b : β} (ha : m.lookup a = some b) (hp : p a b = true)
    (huniq : ∀ a' b', m.lookup a' = some b' → p a' b' = true → a' = a) : m.count p = 1 := by
  rw [count, size, Finset.card_eq_one]
  refine ⟨a, Finset.ext fun x => ?_⟩
  rw [mem_keys_filter, Finset.mem_singleton]
  constructor
  · rintro ⟨b', hb', hp'⟩
    exact huniq x b' hb' hp'
  · rintro rfl
    exact ⟨b, ha, hp⟩

/-- The entries counted in one map are matched one to one by the keys of another. -/
theorem count_eq_size {δ : Type} [DecidableEq γ] {n : FMap γ δ} (f : α → β → γ)
    (hmem : ∀ a b, m.lookup a = some b → p a b = true → f a b ∈ n) (hinj : ∀ a b a' b', m.lookup a =
    some b → p a b = true → m.lookup a' = some b' → p a' b' = true → f a b = f a' b' → a = a')
    (hsurj : ∀ c, c ∈ n → ∃ a b, m.lookup a = some b ∧ p a b = true ∧ f a b = c) :
    m.count p = n.size := by
  -- a counted key determines its value, so `f` is a function of the key
  have key : ∀ a, a ∈ (m.filter p).keys → ∃ b, m.lookup a = some b ∧ p a b = true :=
    fun a ha => mem_keys_filter.mp ha
  choose val hval using key
  refine Finset.card_bij (fun a ha => f a (val a ha)) ?_ ?_ ?_
  · intro a ha
    exact Finmap.mem_keys.mpr (hmem a _ (hval a ha).1 (hval a ha).2)
  · intro a ha a' ha' he
    exact hinj a _ a' _ (hval a ha).1 (hval a ha).2 (hval a' ha').1 (hval a' ha').2 he
  · intro c hc
    obtain ⟨a, b, hb, hp, rfl⟩ := hsurj c (Finmap.mem_keys.mp hc)
    have ha := mem_keys_filter.mpr ⟨b, hb, hp⟩
    refine ⟨a, ha, ?_⟩
    rw [Option.some.inj ((hval a ha).1.symm.trans hb)]

/-- A counter that counts every entry. -/
theorem count_true (m : FMap α β) : m.count (fun _ _ => true) = m.size := by
  have hall : m.filter (fun _ _ => true) = m := by
    refine Finmap.ext_lookup fun x => ?_
    rw [lookup_filter]
    cases m.lookup x <;> rfl
  rw [count, hall]

/-! ## What a map gained -/

/-- Every entry of `n` was already a key of `m` or satisfies `P`. -/
def AddsOnly (P : α → β → Prop) (m n : FMap α β) : Prop :=
  ∀ x b, n.lookup x = some b → x ∈ m ∨ P x b

namespace AddsOnly

variable {P : α → β → Prop} {m n : FMap α β}

theorem refl : AddsOnly P m m := fun _ b hx => .inl (Finmap.mem_iff.mpr ⟨b, hx⟩)

theorem insert (h : AddsOnly P m n) {a : α} {b : β} (hb : P a b) :
    AddsOnly P m (Finmap.insert a b n) := by
  intro x y hx
  rcases lookup_insert_eq_some.mp hx with ⟨rfl, rfl⟩ | ⟨-, hx⟩
  · exact .inr hb
  · exact h x y hx

theorem update (h : AddsOnly P m n) {a : α} {b c : β} (ha : m.lookup a = some c) :
    AddsOnly P m (Finmap.insert a b n) := by
  intro x y hx
  rcases lookup_insert_eq_some.mp hx with ⟨rfl, -⟩ | ⟨-, hx⟩
  · exact .inl (Finmap.mem_iff.mpr ⟨c, ha⟩)
  · exact h x y hx

theorem mapVals (f : α → β → β) : AddsOnly P m (m.mapVals f) := by
  intro x y hx
  rw [lookup_mapVals] at hx
  obtain ⟨b, hb, -⟩ := Option.map_eq_some_iff.mp hx
  exact .inl (Finmap.mem_iff.mpr ⟨b, hb⟩)

end AddsOnly

end FMap

end Tss
