import ActionEngine.Proofs.Json.Document

/-!
# The order of keys

Two values are alike if they differ at most in the order in which records give their keys,
at any depth. Sorting the keys everywhere gives one form for all values that are alike.
-/

namespace ActionEngine

def Fields.sort (fields : Fields) : Fields :=
  fields.mergeSort fun f g => !(g.1 < f.1)

namespace Fields

variable {fields : Fields}

theorem sort_perm (fields : Fields) : fields.sort.Perm fields :=
  List.mergeSort_perm _ _

theorem mem_sort {f : LooseText × Value} : f ∈ fields.sort ↔ f ∈ fields :=
  List.mem_mergeSort

theorem nodup_keys_sort (nodup : fields.keys.Nodup) : fields.sort.keys.Nodup :=
  (((sort_perm fields).map _).nodup_iff).2 nodup

theorem get?_sort (nodup : fields.keys.Nodup) (key : LooseText) :
    fields.sort.get? key = fields.get? key := by
  ext v
  rw [get?_eq_some_iff (nodup_keys_sort nodup), get?_eq_some_iff nodup, mem_sort]

/-- Sorting does not look at the values. -/
theorem sort_map (g : Value → Value) (fields : Fields) :
    sort (fields.map fun f => (f.1, g f.2)) = fields.sort.map fun f => (f.1, g f.2) := by
  unfold sort
  symm
  apply List.map_mergeSort
  exact fun _ _ _ _ => rfl

theorem keys_map (g : Value → Value) (fields : Fields) :
    keys (fields.map fun f => (f.1, g f.2)) = fields.keys := by
  unfold keys
  rw [List.map_map]
  rfl

theorem get?_map (g : Value → Value) (fields : Fields) (key : LooseText) :
    get? (fields.map fun f => (f.1, g f.2)) key = (fields.get? key).map g := by
  induction fields with
  | nil => rfl
  | cons f fields ih =>
      rw [List.map_cons, get?_cons, get?_cons, ih]
      split <;> rfl

theorem pairwise_sort (fields : Fields) : fields.sort.Pairwise fun f g => !(g.1 < f.1) := by
  apply List.pairwise_mergeSort
  · intro f g h
    simp only [Bool.not_eq_true', decide_eq_false_iff_not, not_lt]
    exact le_trans
  · intro f g
    simp only [Bool.or_eq_true, Bool.not_eq_true', decide_eq_false_iff_not, not_lt]
    exact le_total _ _

theorem sort_sort (fields : Fields) : fields.sort.sort = fields.sort :=
  List.mergeSort_of_pairwise (pairwise_sort fields)

/-- There is only one way to put the fields in order. -/
theorem sort_of_perm {sorted : Fields} (nodup : fields.keys.Nodup) (perm : fields.Perm sorted)
    (ordered : sorted.Pairwise fun f g => !(g.1 < f.1)) : fields.sort = sorted := by
  refine List.Perm.eq_of_pairwise ?_ (pairwise_sort fields) ordered ((sort_perm fields).trans perm)
  rintro ⟨key, v⟩ ⟨key', v'⟩ first later before behind
  simp only [Bool.not_eq_true', decide_eq_false_iff_not, not_lt] at before behind
  obtain rfl := le_antisymm before behind
  have found := (get?_eq_some_iff nodup).2 (mem_sort.1 first)
  rw [(get?_eq_some_iff nodup).2 (perm.mem_iff.2 later)] at found
  cases found
  rfl

/-- The field with the least key comes first. -/
theorem sort_of_least (nodup : fields.keys.Nodup) {key : LooseText} {v : Value}
    (mem : (key, v) ∈ fields) (least : ∀ other ∈ fields.keys, !(other < key)) :
    fields.sort = (key, v) :: (fields.drop key).sort := by
  have distinct : fields.Nodup := List.Nodup.of_map _ nodup
  have distinct' : ((key, v) :: fields.drop key).Nodup :=
    List.nodup_cons.2 ⟨by simp [drop], distinct.filter _⟩
  have perm : fields.Perm ((key, v) :: fields.drop key) := by
    rw [List.perm_ext_iff_of_nodup distinct distinct']
    rintro ⟨other, w⟩
    simp only [drop, List.mem_cons, List.mem_filter, bne_iff_ne]
    constructor
    · intro mem'
      by_cases same : other = key
      · subst same
        rw [← get?_eq_some_iff nodup] at mem mem'
        rw [Option.some.inj (mem'.symm.trans mem)]
        exact .inl rfl
      · exact .inr ⟨mem', same⟩
    · rintro (same | ⟨mem', -⟩)
      · exact same ▸ mem
      · exact mem'
  refine sort_of_perm nodup (perm.trans ((sort_perm _).symm.cons _))
    (List.pairwise_cons.2 ⟨fun g hg => ?_, pairwise_sort _⟩)
  exact least g.1 (List.mem_map_of_mem (List.mem_of_mem_filter (mem_sort.1 hg)))

end Fields

namespace Value

mutual

/-- The value with the keys of its records in order. -/
def sorted : Value → Value
  | list items => list (sortedItems items)
  | tuple items => tuple (sortedItems items)
  | record fields => record (Fields.sort (sortedFields fields))
  | v => v

def sortedItems : List Value → List Value
  | [] => []
  | v :: vs => sorted v :: sortedItems vs

def sortedFields : List (LooseText × Value) → List (LooseText × Value)
  | [] => []
  | (key, v) :: fields => (key, sorted v) :: sortedFields fields

end

/-- Two values differ at most in the order in which records give their keys. -/
def Alike (v w : Value) : Prop :=
  v.sorted = w.sorted

theorem sortedItems_eq_map (items : List Value) : sortedItems items = items.map sorted := by
  induction items with
  | nil => rfl
  | cons v items ih => rw [sortedItems, ih, List.map_cons]

theorem sortedFields_eq_map (fields : Fields) :
    sortedFields fields = fields.map fun f => (f.1, sorted f.2) := by
  induction fields with
  | nil => rfl
  | cons f fields ih => rw [sortedFields, ih, List.map_cons]

theorem sorted_list (items : List Value) : sorted (.list items) = .list (items.map sorted) := by
  rw [sorted, sortedItems_eq_map]

theorem sorted_record (fields : Fields) :
    sorted (.record fields) = .record (fields.sort.map fun f => (f.1, sorted f.2)) := by
  rw [sorted, sortedFields_eq_map, Fields.sort_map]

theorem sorted_tuple (items : List Value) : sorted (.tuple items) = .tuple (items.map sorted) := by
  rw [sorted, sortedItems_eq_map]

/-- Sorting loses no text. -/
theorem Mentions.sorted {v : Value} {s : LooseText} (mentions : v.Mentions s) :
    v.sorted.Mentions s := by
  induction mentions with
  | text s => exact .text s
  | @key fields f mem =>
      rw [sorted_record]
      exact .key (f := (f.1, f.2.sorted)) (List.mem_map_of_mem (Fields.mem_sort.2 mem))
  | @field fields f s mem below ih =>
      rw [sorted_record]
      exact .field (List.mem_map_of_mem (Fields.mem_sort.2 mem)) ih
  | item mem below ih =>
      rw [sorted_list]
      exact .item (List.mem_map_of_mem mem) ih
  | part mem below ih =>
      rw [sorted_tuple]
      exact .part (List.mem_map_of_mem mem) ih

theorem get?_sorted {fields : Fields} (nodup : fields.keys.Nodup) (key : LooseText) :
    Fields.get? (fields.sort.map fun f => (f.1, sorted f.2)) key =
      (fields.get? key).map sorted := by
  rw [Fields.get?_map, Fields.get?_sort nodup]

/-- Only records, and lists that hold them, have keys to reorder. -/
theorem alike_text_iff {v : Value} {s : LooseText} : v.Alike (.text s) ↔ v = .text s := by
  unfold Alike
  constructor
  · cases v with
    | text s' => exact id
    | _ => simp [sorted]
  · rintro rfl
    rfl

end Value

namespace Json.IsDocument

variable {v : Value}

theorem sorted (held : IsDocument v) : IsDocument v.sorted := by
  induction held with
  | list held ih =>
      rw [Value.sorted_list]
      exact .list (List.forall_mem_map.2 ih)
  | @record fields nodup settled held ih =>
      rw [Value.sorted_record]
      constructor
      · rw [Fields.keys_map]
        exact Fields.nodup_keys_sort nodup
      · exact List.forall_mem_map.2 fun f hf => settled f (Fields.mem_sort.1 hf)
      · exact List.forall_mem_map.2 fun f hf => ih f (Fields.mem_sort.1 hf)
  | int short => exact .int short
  | null => exact .null
  | bool b => exact .bool b
  | float x => exact .float x
  | text settled => exact .text settled

/-- Sorting once is enough. -/
theorem alike_sorted (held : IsDocument v) : v.sorted.Alike v := by
  unfold Value.Alike
  induction held with
  | @list items held ih =>
      rw [Value.sorted_list, Value.sorted_list, List.map_map]
      exact congrArg Value.list (List.map_congr_left ih)
  | @record fields nodup settled held ih =>
      rw [Value.sorted_record, Value.sorted_record, Fields.sort_map, Fields.sort_sort, List.map_map]
      refine congrArg Value.record (List.map_congr_left fun f hf => ?_)
      exact congrArg (Prod.mk f.1) (ih f (Fields.mem_sort.1 hf))
  | _ => rfl

end Json.IsDocument

end ActionEngine
