import RedisServer.Database

/-!
# Searching a stream

The identifiers of a stream grow strictly, so that the two binary searches cut it
where they should: what lies behind `upperBound` is exactly what is newer, and what
lies between `lowerBound` and `upperBound` is exactly the range, provided that the
two have not crossed.
-/

namespace RedisServer

namespace Database

variable {entries : List StreamEntry}

/-- The searches do not cross when the start is not behind the end. -/
theorem lowerBound_le_upperBound (entries : List StreamEntry) {start stop : StreamId}
    (hle : start ≤ stop) : lowerBound entries start ≤ upperBound entries stop := by
  refine BinarySearch.partitionPoint_mono fun entry _ hbefore => ?_
  rw [decide_eq_true_eq] at hbefore ⊢
  exact not_lt_of_gt (hbefore.trans_le hle)

section Ordered

variable (hordered : entries.Pairwise fun first second => first.id < second.id)

include hordered

private theorem partitioned_lower (id : StreamId) :
    entries.Pairwise fun first second =>
      decide (second.id < id) = true → decide (first.id < id) = true := by
  refine hordered.imp fun {first second} hlt hsecond => ?_
  rw [decide_eq_true_eq] at hsecond ⊢
  exact hlt.trans hsecond

private theorem partitioned_upper (id : StreamId) :
    entries.Pairwise fun first second =>
      decide (¬ id < second.id) = true → decide (¬ id < first.id) = true := by
  refine hordered.imp fun {first second} hlt hsecond => ?_
  simp only [decide_eq_true_eq, not_lt] at hsecond ⊢
  exact hlt.le.trans hsecond

theorem drop_upperBound (id : StreamId) :
    entries.drop (upperBound entries id) = entries.filter fun entry => decide (id < entry.id) := by
  rw [upperBound, BinarySearch.drop_partitionPoint (partitioned_upper hordered id)]
  refine List.filter_congr fun entry _ => ?_
  rw [decide_not, Bool.not_not]

/-- The searches cross over an entry that is behind the end and before the start. -/
theorem lowerBound_le_upperBound_iff (start stop : StreamId) :
    lowerBound entries start ≤ upperBound entries stop ↔
      ∀ entry ∈ entries, ¬ (stop < entry.id ∧ entry.id < start) := by
  rw [lowerBound, upperBound, BinarySearch.partitionPoint_le_iff
    (partitioned_lower hordered start) (partitioned_upper hordered stop)]
  refine forall₂_congr fun entry _ => ?_
  simp only [decide_eq_true_eq, not_and]
  exact ⟨fun h hstop hstart => h hstart hstop, fun h hstart hstop => h hstop hstart⟩

end Ordered

theorem startMode_resolve (request : ReadRequest) (entries : List StreamEntry) :
    (ReadRequest.resolve request entries).startMode = .afterId := by
  unfold ReadRequest.resolve
  cases hmode : request.startMode <;> simp [hmode]

theorem key_resolve (request : ReadRequest) (entries : List StreamEntry) :
    (ReadRequest.resolve request entries).key = request.key := by
  unfold ReadRequest.resolve
  cases request.startMode <;> rfl

/-- The entries of a range, in their order. -/
def between (start stop : StreamId) (entries : List StreamEntry) : List StreamEntry :=
  entries.filter fun entry => decide (start ≤ entry.id ∧ entry.id ≤ stop)

theorem slice_eq_between (hordered : entries.Pairwise fun first second => first.id < second.id)
    {start stop : StreamId} (hle : lowerBound entries start ≤ upperBound entries stop) :
    (entries.drop (lowerBound entries start)).take
        (upperBound entries stop - lowerBound entries start) = between start stop entries := by
  refine (BinarySearch.slice_eq_filter (partitioned_lower hordered start)
    (partitioned_upper hordered stop) hle).trans ?_
  refine List.filter_congr fun entry _ => ?_
  simp only [← decide_not, not_lt, Bool.decide_and]

end Database

end RedisServer
