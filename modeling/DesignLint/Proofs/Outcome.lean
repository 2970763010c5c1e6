/-!
# Computations that may fail

A computation that succeeds has succeeded at every step before, and one that fails has failed at
its first step that does.
-/

namespace DesignLint

variable {α β ε δ : Type}

theorem bind_eq_ok_iff {first : Except ε α} {next : α → Except ε β} {result : β} :
    first >>= next = .ok result ↔ ∃ middle, first = .ok middle ∧ next middle = .ok result := by
  cases first <;> simp [bind, Except.bind]

theorem bind_eq_error_iff {first : Except ε α} {next : α → Except ε β} {error : ε} :
    first >>= next = .error error ↔
      first = .error error ∨ ∃ middle, first = .ok middle ∧ next middle = .error error := by
  cases first <;> simp [bind, Except.bind]

/-- A computation succeeds if what its result is made of can be computed. -/
theorem exists_bind_pure_eq_ok_iff {first : Except ε α} {f : α → β} :
    (∃ result, (first >>= fun middle => pure (f middle)) = .ok result) ↔
      ∃ middle, first = .ok middle := by
  cases first <;> simp [bind, Except.bind, pure, Except.pure]

theorem exists_bind_pure_eq_error_iff {first : Except ε α} {f : α → β} :
    (∃ error, (first >>= fun middle => pure (f middle)) = .error error) ↔
      ∃ error, first = .error error := by
  cases first <;> simp [bind, Except.bind, pure, Except.pure]

theorem map_eq_ok_iff {first : Except ε α} {f : α → β} {result : β} :
    first.map f = .ok result ↔ ∃ middle, first = .ok middle ∧ f middle = result := by
  cases first <;> simp [Except.map]

theorem map_eq_error_iff {first : Except ε α} {f : α → β} {error : ε} :
    first.map f = .error error ↔ first = .error error := by
  cases first <;> simp [Except.map]

theorem map_map {γ : Type} (f : α → β) (g : β → γ) (first : Except ε α) :
    (first.map f).map g = first.map (g ∘ f) := by
  cases first <;> rfl

@[simp]
theorem mapError_ok (f : ε → δ) (result : α) : Except.mapError f (.ok result) = .ok result :=
  rfl

@[simp]
theorem mapError_error (f : ε → δ) (error : ε) :
    Except.mapError f (.error error : Except ε α) = .error (f error) :=
  rfl

theorem mapError_eq_ok_iff {first : Except ε α} {f : ε → δ} {result : α} :
    first.mapError f = .ok result ↔ first = .ok result := by
  cases first <;> simp

theorem mapError_eq_error_iff {first : Except ε α} {f : ε → δ} {error : δ} :
    first.mapError f = .error error ↔ ∃ own, first = .error own ∧ f own = error := by
  cases first <;> simp

/-- What every step over a list keeps, all together keep. -/
theorem foldlM_keeps {f : β → α → Except ε β} {items : List α} (holds : β → Prop)
    (keeps : ∀ before item after, f before item = .ok after → holds before → holds after)
    {start result : β} (folded : items.foldlM f start = .ok result) (first : holds start) :
    holds result := by
  induction items generalizing start with
  | nil =>
      cases folded
      exact first
  | cons item items inductionHypothesis =>
      rw [List.foldlM_cons] at folded
      obtain ⟨middle, step, rest⟩ := bind_eq_ok_iff.mp folded
      exact inductionHypothesis rest (keeps start item middle step first)

theorem exists_of_foldlM_eq_error {f : β → α → Except ε β} {items : List α} {start : β} {error : ε}
    (failed : items.foldlM f start = .error error) :
    ∃ before, ∃ item ∈ items, f before item = .error error := by
  induction items generalizing start with
  | nil => cases failed
  | cons item items inductionHypothesis =>
      rw [List.foldlM_cons] at failed
      rcases bind_eq_error_iff.mp failed with here | ⟨middle, -, later⟩
      · exact ⟨start, item, List.mem_cons_self, here⟩
      · obtain ⟨before, other, listed, there⟩ := inductionHypothesis later
        exact ⟨before, other, List.mem_cons_of_mem _ listed, there⟩

theorem toOption_eq_some_iff {outcome : Except ε α} {result : α} :
    outcome.toOption = some result ↔ outcome = .ok result := by
  cases outcome <;> simp [Except.toOption]

theorem option_mapM_eq_ok_iff {f : α → Except ε β} {item : Option α} {result : Option β} :
    item.mapM f = .ok result ↔ Option.Rel (fun part made => f part = .ok made) item result := by
  cases item with
  | none => cases result <;> simp [pure, Except.pure]
  | some part =>
      rw [Option.mapM_some]
      cases made : f part <;> cases result <;> simp [Functor.map, Except.map, made]

theorem mapM_cons_eq_ok_iff {f : α → Except ε β} {item : α} {items : List α} {results : List β} :
    (item :: items).mapM f = .ok results ↔
      ∃ result others, f item = .ok result ∧ items.mapM f = .ok others ∧
        results = result :: others := by
  rw [List.mapM_cons, bind_eq_ok_iff]
  constructor
  · rintro ⟨result, first, rest⟩
    obtain ⟨others, later, finish⟩ := bind_eq_ok_iff.mp rest
    cases finish
    exact ⟨result, others, first, later, rfl⟩
  · rintro ⟨result, others, first, later, rfl⟩
    exact ⟨result, first, bind_eq_ok_iff.mpr ⟨others, later, rfl⟩⟩

theorem mapM_append_eq_ok_iff {f : α → Except ε β} {items others : List α} {results : List β} :
    (items ++ others).mapM f = .ok results ↔
      ∃ front back, items.mapM f = .ok front ∧ others.mapM f = .ok back ∧
        results = front ++ back := by
  rw [List.mapM_append, bind_eq_ok_iff]
  constructor
  · rintro ⟨front, first, rest⟩
    obtain ⟨back, later, finish⟩ := bind_eq_ok_iff.mp rest
    cases finish
    exact ⟨front, back, first, later, rfl⟩
  · rintro ⟨front, back, first, later, rfl⟩
    exact ⟨front, first, bind_eq_ok_iff.mpr ⟨back, later, rfl⟩⟩

/-- Results in two parts come from items in two parts. -/
theorem exists_append_of_mapM_eq_ok {f : α → Except ε β} {items : List α} {front back : List β}
    (mapped : items.mapM f = .ok (front ++ back)) :
    ∃ before after, items = before ++ after ∧ before.mapM f = .ok front ∧
      after.mapM f = .ok back := by
  induction front generalizing items with
  | nil => exact ⟨[], items, rfl, rfl, mapped⟩
  | cons result front inductionHypothesis =>
      cases items with
      | nil => cases mapped
      | cons item items =>
          obtain ⟨own, others, first, later, same⟩ := mapM_cons_eq_ok_iff.mp mapped
          cases same
          obtain ⟨before, after, rfl, firstPart, lastPart⟩ := inductionHypothesis later
          exact ⟨item :: before, after, rfl,
            mapM_cons_eq_ok_iff.mpr ⟨result, front, first, firstPart, rfl⟩, lastPart⟩

/-- Where every step over a list succeeds, so do all together. -/
theorem exists_mapM_eq_ok {f : α → Except ε β} {items : List α}
    (succeeds : ∀ item ∈ items, ∃ result, f item = .ok result) :
    ∃ results, items.mapM f = .ok results := by
  induction items with
  | nil => exact ⟨[], rfl⟩
  | cons item items inductionHypothesis =>
      obtain ⟨result, resultEq⟩ := succeeds item List.mem_cons_self
      obtain ⟨results, resultsEq⟩ := inductionHypothesis fun other member =>
        succeeds other (List.mem_cons_of_mem item member)
      exact ⟨_, mapM_cons_eq_ok_iff.mpr ⟨result, results, resultEq, resultsEq, rfl⟩⟩

/-- Where each step over the images of items succeeds, the results come in their order. -/
theorem mapM_map_eq_ok {γ : Type} {f : α → Except ε β} {g : γ → α} {h : γ → β}
    (reads : ∀ item, f (g item) = .ok (h item)) (items : List γ) :
    (items.map g).mapM f = .ok (items.map h) := by
  induction items with
  | nil => rfl
  | cons item items inductionHypothesis =>
      simp only [List.map_cons]
      exact mapM_cons_eq_ok_iff.mpr ⟨_, _, reads item, inductionHypothesis, rfl⟩

/-- Steps that succeed wherever others do, with the same results, do so all together. -/
theorem mapM_eq_ok_of_forall {f : α → Except ε β} {g : α → Except δ β} {items : List α}
    {results : List β}
    (follows : ∀ item ∈ items, ∀ result, f item = .ok result → g item = .ok result)
    (mapped : items.mapM f = .ok results) : items.mapM g = .ok results := by
  induction items generalizing results with
  | nil =>
      cases mapped
      rfl
  | cons item items inductionHypothesis =>
      obtain ⟨result, others, first, later, rfl⟩ := mapM_cons_eq_ok_iff.mp mapped
      have laterToo := inductionHypothesis
        (fun other member => follows other (List.mem_cons_of_mem item member)) later
      exact mapM_cons_eq_ok_iff.mpr
        ⟨result, others, follows item List.mem_cons_self result first, laterToo, rfl⟩

/-- Where all steps over a list together succeed, each result is the one of a step. -/
theorem exists_of_mapM_eq_ok {f : α → Except ε β} {items : List α}
    {results : List β} (mapped : items.mapM f = .ok results) :
    ∀ result ∈ results, ∃ item ∈ items, f item = .ok result := by
  induction items generalizing results with
  | nil =>
      cases mapped
      simp
  | cons item items inductionHypothesis =>
      obtain ⟨value, values, first, later, rfl⟩ := mapM_cons_eq_ok_iff.mp mapped
      refine List.forall_mem_cons.mpr ⟨⟨item, List.mem_cons_self, first⟩, ?_⟩
      intro result member
      obtain ⟨other, listed, made⟩ := inductionHypothesis later result member
      exact ⟨other, List.mem_cons_of_mem item listed, made⟩

/-- Where all steps over a list together succeed, what a step gives is among the results. -/
theorem mem_of_mapM_eq_ok {f : α → Except ε β} {items : List α} {results : List β}
    (mapped : items.mapM f = .ok results) {item : α} (listed : item ∈ items) {result : β}
    (made : f item = .ok result) : result ∈ results := by
  obtain ⟨before, after, rfl⟩ := List.append_of_mem listed
  obtain ⟨front, back, -, later, rfl⟩ := mapM_append_eq_ok_iff.mp mapped
  obtain ⟨own, others, first, -, rfl⟩ := mapM_cons_eq_ok_iff.mp later
  rw [made] at first
  cases first
  simp

/-- Where all steps over a list together succeed, so does each of them. -/
theorem forall_of_mapM_eq_ok {f : α → Except ε β} {items : List α}
    {results : List β} (mapped : items.mapM f = .ok results) :
    ∀ item ∈ items, ∃ result, f item = .ok result := by
  induction items generalizing results with
  | nil => simp
  | cons item items inductionHypothesis =>
      obtain ⟨result, others, first, later, -⟩ := mapM_cons_eq_ok_iff.mp mapped
      exact List.forall_mem_cons.mpr ⟨⟨result, first⟩, inductionHypothesis later⟩

theorem exists_mapM_eq_ok_iff {f : α → Except ε β} {items : List α} :
    (∃ results, items.mapM f = .ok results) ↔ ∀ item ∈ items, ∃ result, f item = .ok result :=
  ⟨fun ⟨_, mapped⟩ => forall_of_mapM_eq_ok mapped, exists_mapM_eq_ok⟩

/-- Where each step can be told from its result, the results tell the items. -/
theorem map_eq_of_mapM_eq_ok {f : α → Except ε β} {g : β → α} {items : List α} {results : List β}
    (told : ∀ item ∈ items, ∀ result, f item = .ok result → g result = item)
    (mapped : items.mapM f = .ok results) : results.map g = items := by
  induction items generalizing results with
  | nil =>
      cases mapped
      rfl
  | cons item items inductionHypothesis =>
      obtain ⟨result, others, first, later, rfl⟩ := mapM_cons_eq_ok_iff.mp mapped
      rw [List.map_cons, told item List.mem_cons_self result first,
        inductionHypothesis (fun other member => told other (List.mem_cons_of_mem item member))
          later]

/-- Where all steps over a list together fail, one of them does. -/
theorem exists_of_mapM_eq_error {f : α → Except ε β} {items : List α} {error : ε}
    (failed : items.mapM f = .error error) : ∃ item ∈ items, f item = .error error := by
  induction items with
  | nil => cases failed
  | cons item items inductionHypothesis =>
      rw [List.mapM_cons, bind_eq_error_iff] at failed
      rcases failed with first | ⟨result, -, later⟩
      · exact ⟨item, List.mem_cons_self, first⟩
      · rcases bind_eq_error_iff.mp later with rest | ⟨results, -, finish⟩
        · obtain ⟨other, listed, otherFailed⟩ := inductionHypothesis rest
          exact ⟨other, List.mem_cons_of_mem item listed, otherFailed⟩
        · cases finish

theorem exists_mapM_eq_error_iff {f : α → Except ε β} {items : List α} :
    (∃ error, items.mapM f = .error error) ↔ ∃ item ∈ items, ∃ error, f item = .error error := by
  constructor
  · rintro ⟨error, failed⟩
    obtain ⟨item, listed, itemFailed⟩ := exists_of_mapM_eq_error failed
    exact ⟨item, listed, error, itemFailed⟩
  · rintro ⟨item, listed, error, itemFailed⟩
    cases mapped : items.mapM f with
    | error error => exact ⟨error, rfl⟩
    | ok results =>
        obtain ⟨result, succeeded⟩ := forall_of_mapM_eq_ok mapped item listed
        cases itemFailed.symm.trans succeeded

end DesignLint
