import ActionEngine.TextRange

/-!
# Ranges given by two offsets

A start and an end may come in either order. The range between them starts at the smaller one, or
at zero if that is negative; its length is always their distance. So the end is the larger offset
only if nothing had to be moved to zero. What a range is written as is read back to the range.
-/

namespace ActionEngine.TextRange

/-- The fields give a start and an end, and no location. -/
structure GivesOffsets (fields : Fields) (start stop : Int) : Prop where
  unplaced : fields.get? "location" = none
  starts : fields.get? "start" = some (.int start)
  stops : fields.get? "end" = some (.int stop)

variable {fields : Fields} {start stop : Int}

theorem between_eq (start stop : Int) :
    between start stop =
      .ok ⟨(min start stop).toNat, (max start stop - min start stop).toNat⟩ := rfl

theorem between_comm (start stop : Int) : between start stop = between stop start := by
  rw [between_eq, between_eq, Int.min_comm, Int.max_comm]

theorem GivesOffsets.ofValue_eq (h : GivesOffsets fields start stop) :
    ofValue (.record fields) = between start stop := by
  simp only [ofValue, ofFields, h.unplaced, h.starts, h.stops]
  rfl

/-- The end of a range between two offsets is moved as far as its start. -/
theorem stop_between {r : TextRange} (h : between start stop = .ok r) :
    (r.location : Int) = max 0 (min start stop) ∧
      (r.stop : Int) = max 0 (min start stop) + (max start stop - min start stop) := by
  rw [between_eq] at h
  cases h
  simp only [TextRange.stop]
  omega

theorem stop_between_eq_iff {r : TextRange} (h : between start stop = .ok r) :
    (r.stop : Int) = max 0 (max start stop) ↔ 0 ≤ min start stop ∨ start = stop := by
  have moved := (stop_between h).2
  omega

theorem ofValue_toPair (r : TextRange) : ofValue r.toPair = .ok r := rfl

theorem ofValue_toRecord (r : TextRange) : ofValue r.toRecord = .ok r := rfl

theorem givesOffsets_span (start stop : Int) :
    GivesOffsets [("start", .int start), ("end", .int stop)] start stop :=
  ⟨rfl, rfl, rfl⟩

theorem ofValue_toSpan (r : TextRange) : ofValue r.toSpan = .ok r := by
  have read := (givesOffsets_span r.location r.stop).ofValue_eq
  rw [between_eq] at read
  -- A range ends nowhere before its start, so the two offsets are in order.
  have ordered : (r.location : Int) ≤ r.stop := Int.ofNat_le.2 (Nat.le_add_right _ _)
  rw [Int.min_eq_left ordered, Int.max_eq_right ordered] at read
  have length : ((r.stop : Int) - r.location).toNat = r.length := by
    simp only [TextRange.stop]
    omega
  rw [length, Int.toNat_natCast] at read
  exact read

/-- Two offsets give a range, the same for both orders. It starts at the smaller offset, or at
    zero if that is negative, and it ends as far behind its start as the offsets are apart: at
    the larger offset, or at zero if that is negative, exactly if no offset is negative or the two
    are the same. A range that is written as a pair, as a record, or by its offsets is read back. -/
theorem offsets_give_end_iff (fields : Fields) (start stop : Int)
    (given : GivesOffsets fields start stop) :
    (∃ r : TextRange, ofValue (.record fields) = .ok r ∧
      (r.location : Int) = max 0 (min start stop) ∧
      (r.stop : Int) = max 0 (min start stop) + (max start stop - min start stop) ∧
      ((r.stop : Int) = max 0 (max start stop) ↔ 0 ≤ min start stop ∨ start = stop) ∧
      ∀ swapped : Fields, GivesOffsets swapped stop start → ofValue (.record swapped) = .ok r) ∧
    ∀ r : TextRange, ofValue r.toPair = .ok r ∧ ofValue r.toRecord = .ok r ∧
      ofValue r.toSpan = .ok r := by
  constructor
  · have read := given.ofValue_eq
    obtain ⟨location, moved⟩ := stop_between (between_eq start stop)
    refine ⟨_, read, location, moved, stop_between_eq_iff (between_eq start stop), ?_⟩
    intro swapped given'
    rw [given'.ofValue_eq, between_comm]
    rfl
  · intro r
    exact ⟨ofValue_toPair r, ofValue_toRecord r, ofValue_toSpan r⟩

theorem late_start_gives_end :
    GivesOffsets [("end", .int 5), ("note", .null), ("start", .int 9)] 9 5 ∧
      ∃ r : TextRange,
        ofValue (.record [("end", .int 5), ("note", .null), ("start", .int 9)]) = .ok r ∧
          r.location = 5 ∧ r.stop = 9 := by
  have given : GivesOffsets [("end", .int 5), ("note", .null), ("start", .int 9)] 9 5 :=
    ⟨rfl, rfl, rfl⟩
  obtain ⟨⟨r, read, location, -, ends, -⟩, -⟩ := offsets_give_end_iff _ 9 5 given
  have stop := ends.2 (.inl (by decide))
  exact ⟨given, r, read, by omega, by omega⟩

/-- A start in front of the document moves the end. -/
theorem negative_start_moves_end :
    ∃ r : TextRange, ofValue (.record [("start", .int (-2)), ("end", .int 5)]) = .ok r ∧
      r.location = 0 ∧ r.stop = 7 ∧ (r.stop : Int) ≠ max 0 (max (-2) 5) :=
  ⟨⟨0, 7⟩, rfl, rfl, rfl, by decide⟩

end ActionEngine.TextRange
