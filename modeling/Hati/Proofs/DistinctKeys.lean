import Hati.Proofs.Effect

namespace Hati

/-!
# No key occurs twice

Tables are written one key at a time, and a key that is there keeps its place.
Evaluation therefore never makes an object with two entries under one key, and the
entry that is met among all entries of an object is the one that is found under
its key.
-/

namespace Dict

variable {α : Type} {dict : Dict α} {key : String}

theorem contains_iff_mem_keys : dict.contains key = true ↔ key ∈ dict.keys := by
  simp only [contains, keys, List.any_eq_true, List.mem_map, beq_iff_eq]

theorem nodup_keys_insert (distinct : dict.keys.Nodup) (key : String) (value : α) :
    (dict.insert key value).keys.Nodup := by
  rw [keys_insert]
  split
  · exact distinct
  · rename_i absent
    have fresh : key ∉ dict.keys := fun member => absent (contains_iff_mem_keys.mpr member)
    refine List.nodup_append.mpr ⟨distinct, List.pairwise_singleton _ key, ?_⟩
    rintro other member last single rfl
    exact fresh (List.mem_singleton.mp single ▸ member)

private theorem lookup_of_mem {value : α} :
    ∀ {entries : List (String × α)}, (entries.map Prod.fst).Nodup → (key, value) ∈ entries →
      entries.lookup key = some value
  | (name, first) :: rest, distinct, member => by
      obtain ⟨fresh, restDistinct⟩ := List.nodup_cons.mp distinct
      rw [List.lookup_cons]
      rcases List.mem_cons.mp member with here | further
      · obtain ⟨rfl, rfl⟩ := Prod.mk.inj here
        simp
      · have apart : (key == name) = false := by
          refine beq_eq_false_iff_ne.mpr fun same => fresh ?_
          exact List.mem_map.mpr ⟨(key, value), further, same⟩
        rw [apart]
        exact lookup_of_mem restDistinct further

/-- Every entry is the one that is found under its key. -/
theorem get?_of_mem (distinct : dict.keys.Nodup) {value : α}
    (member : (key, value) ∈ dict.entries) : dict.get? key = some value :=
  lookup_of_mem distinct member

end Dict

namespace Object

private theorem nodup_keys_foldl_define :
    ∀ (pairs : List (String × Value)) {object : Object}, object.properties.keys.Nodup →
      (pairs.foldl (fun object pair => object.define pair.1 pair.2) object).properties.keys.Nodup
  | [], _, distinct => distinct
  | _ :: pairs, _, distinct =>
      nodup_keys_foldl_define pairs (Dict.nodup_keys_insert distinct _ _)

theorem nodup_keys_ofPairs (pairs : List (String × Value)) :
    (Object.ofPairs pairs).properties.keys.Nodup :=
  nodup_keys_foldl_define pairs List.nodup_nil

end Object

namespace Heap

/-- No object of the heap has two entries under one key. -/
def KeysDistinct (heap : Heap) : Prop :=
  ∀ ref, (heap.object ref).properties.keys.Nodup

variable {permit : Permit} {heap after : Heap}

theorem KeysDistinct.allocObject (distinct : heap.KeysDistinct) {object : Object}
    (fresh : object.properties.keys.Nodup) : (heap.allocObject object).2.KeysDistinct := by
  intro ref
  simp only [Heap.allocObject, Heap.object, Array.getD_eq_getD_getElem?, Array.getElem?_push]
  split
  · exact fresh
  · simpa only [Heap.object, Array.getD_eq_getD_getElem?] using distinct ref

theorem KeysDistinct.modifyObject (distinct : heap.KeysDistinct) (target : ObjectRef)
    {f : Object → Object}
    (keeps : ∀ object : Object, object.properties.keys.Nodup → (f object).properties.keys.Nodup) :
    (heap.modifyObject target f).KeysDistinct := by
  intro ref
  have before := distinct ref
  by_cases same : ref = target
  · subst same
    by_cases allocated : ref.index < heap.objects.size
    · rw [object_modifyObject_self heap ref f allocated]
      exact keeps _ before
    · have outside : (heap.modifyObject ref f).object ref = {} := by
        have missing : heap.objects[ref.index]? = none :=
          Array.getElem?_eq_none (Nat.le_of_not_lt allocated)
        simp [Heap.object, Heap.modifyObject, Array.getElem?_modify, missing]
      rw [outside]
      exact List.nodup_nil
  · rw [object_modifyObject_of_ne same]
    exact before

theorem Effect.keysDistinct (effect : Effect permit heap after) (distinct : heap.KeysDistinct) :
    after.KeysDistinct := by
  cases effect with
  | allocObject object fresh => exact distinct.allocObject fresh
  | insert target key property owned =>
      exact distinct.modifyObject target fun _ before => Dict.nodup_keys_insert before _ _
  | add target key value span thawed absent =>
      exact distinct.modifyObject target fun _ before => Dict.nodup_keys_insert before _ _
  | replace target key value old thawed present writable =>
      refine distinct.modifyObject target fun object before => ?_
      unfold Object.replaceValue
      split
      · exact Dict.nodup_keys_insert before _ _
      · exact before
  | freeze target => exact distinct.modifyObject target fun _ before => before
  | clear target permitted => exact distinct.modifyObject target fun _ _ => List.nodup_nil
  | _ => exact distinct

theorem Path.keysDistinct (path : Path permit heap after) (distinct : heap.KeysDistinct) :
    after.KeysDistinct := by
  induction path with
  | refl => exact distinct
  | tail _ effect ih => exact effect.keysDistinct ih

end Heap

end Hati
