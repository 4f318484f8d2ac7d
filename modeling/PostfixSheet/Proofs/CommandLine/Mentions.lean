import PostfixSheet.CommandLine.Run

/-!
# The files that a command line names

An option counts by the last value that it is given, however the options are mixed, so the files
that are named for a sheet are those of three values, and to leave out an option changes nothing
about the others.
-/

namespace PostfixSheet.CommandLine

variable {arguments : Arguments} {switch other : Switch} {files : Files} {mention : Mention}

/-! Values -/

theorem lookup_filter_of_ne (options : List (Switch × Text)) (apart : switch ≠ other) :
    (options.filter (·.1 != other)).lookup switch = options.lookup switch := by
  induction options with
  | nil => rfl
  | cons option options induction =>
      obtain ⟨first, value⟩ := option
      by_cases left : first = other
      · have miss : (switch == first) = false := by simpa [left] using apart
        rw [List.filter_cons_of_neg (by simpa using left), List.lookup_cons, miss]
        exact induction
      · rw [List.filter_cons_of_pos (by simpa using left), List.lookup_cons, List.lookup_cons,
          induction]

namespace Arguments

/-- The same without any use of an option. -/
def without (arguments : Arguments) (switch : Switch) : Arguments :=
  { arguments with options := arguments.options.filter (·.1 != switch) }

theorem value_without (apart : switch ≠ other) :
    (arguments.without other).value? switch = arguments.value? switch := by
  rw [value?, value?, without, ← List.filter_reverse]
  exact lookup_filter_of_ne arguments.options.reverse apart

theorem has_without (apart : switch ≠ other) :
    (arguments.without other).has switch = arguments.has switch := by
  rw [has, has, without, List.any_filter]
  apply congrArg (List.any arguments.options)
  funext option
  by_cases same : option.1 = switch
  · simp [same, apart]
  · simp [same]

theorem mem_of_value {value : Text} (given : arguments.value? switch = some value) :
    switch ∈ arguments.options.map (·.1) := by
  obtain ⟨before, after, split, _⟩ := List.lookup_eq_some_iff.mp given
  have member : (switch, value) ∈ arguments.options.reverse := by simp [split]
  exact List.mem_map_of_mem (List.mem_reverse.mp member)

theorem value_of_absent (absent : switch ∉ arguments.options.map (·.1)) :
    arguments.value? switch = none := by
  cases given : arguments.value? switch with
  | none => rfl
  | some value => exact absurd (mem_of_value given) absent

theorem value_without_self : (arguments.without switch).value? switch = none := by
  apply value_of_absent
  intro used
  obtain ⟨option, member, same⟩ := List.mem_map.mp used
  have kept := (List.mem_filter.mp member).2
  exact bne_iff_ne.mp kept same

theorem has_of_absent (absent : switch ∉ arguments.options.map (·.1)) :
    arguments.has switch = false := by
  rw [has, List.any_eq_false]
  intro option member used
  apply absent
  rw [← beq_iff_eq.mp used]
  exact List.mem_map_of_mem member

end Arguments

/-! Mentions -/

theorem mem_of_arguments : mention ∈ Mention.ofArguments arguments ↔
    (∃ switch value, arguments.value? switch = some value ∧
      Mention.ofOption? switch value = some mention) ∨
    ∃ source, arguments.words.head? = some source ∧ mention = .source source := by
  have options : mention ∈ (arguments.options.map (·.1)).eraseDups.filterMap
      (fun switch => (arguments.value? switch).bind (Mention.ofOption? switch)) ↔
      ∃ switch value, arguments.value? switch = some value ∧
        Mention.ofOption? switch value = some mention := by
    rw [List.mem_filterMap]
    constructor
    · intro ⟨switch, _, bound⟩
      obtain ⟨value, given, names⟩ := Option.bind_eq_some_iff.mp bound
      exact ⟨switch, value, given, names⟩
    · intro ⟨switch, value, given, names⟩
      have used := List.mem_eraseDups.mpr (Arguments.mem_of_value given)
      exact ⟨switch, used, Option.bind_eq_some_iff.mpr ⟨value, given, names⟩⟩
  have words : mention ∈ arguments.words.head?.toList.map Mention.source ↔
      ∃ source, arguments.words.head? = some source ∧ mention = .source source := by
    simp [eq_comm]
  rw [Mention.ofArguments, List.mem_append, options, words]

theorem mem_of_arguments_without
    (named : mention ∈ Mention.ofArguments (arguments.without switch)) :
    mention ∈ Mention.ofArguments arguments := by
  rw [mem_of_arguments] at named ⊢
  rcases named with ⟨own, value, given, names⟩ | word
  · have apart : own ≠ switch := by
      intro same
      rw [same, Arguments.value_without_self] at given
      cases given
    rw [Arguments.value_without apart] at given
    exact .inl ⟨own, value, given, names⟩
  · exact .inr word

/-- A file is named in vain if no file can have the name, and otherwise if there is not what has to be
there. -/
theorem mention_ending_iff {ending : Ending} :
    mention.ending? files = some ending ↔
      Path.canName mention.text = false ∧ ending = .broken (.file ⟨.unnameable, mention.text⟩) ∨
      Path.canName mention.text = true ∧ mention.isFit files = false ∧ ending = .misused := by
  rw [Mention.ending?]
  cases Path.canName mention.text with
  | false =>
      have flip : some (Ending.broken (.file ⟨.unnameable, mention.text⟩)) = some ending ↔
          ending = .broken (.file ⟨.unnameable, mention.text⟩) := by
        rw [Option.some.injEq, eq_comm]
      simpa using flip
  | true =>
      cases mention.isFit files with
      | true => simp
      | false =>
          have flip : some Ending.misused = some ending ↔ ending = .misused := by
            rw [Option.some.injEq, eq_comm]
          simpa using flip

theorem mention_status_ne_zero {ending : Ending} (ends : mention.ending? files = some ending) :
    ending.status ≠ 0 := by
  rcases mention_ending_iff.mp ends with ⟨_, same⟩ | ⟨_, _, same⟩
  · rw [same]
    exact Nat.one_ne_zero
  · rw [same]
    exact Nat.succ_ne_zero 1

/-- No file is named in vain. -/
def Fit (files : Files) (mentions : List Mention) : Prop :=
  ∀ mention ∈ mentions, mention.ending? files = none

@[simp] theorem fit_nil (files : Files) : Fit files [] := List.forall_mem_nil _

@[simp] theorem fit_cons {mentions : List Mention} :
    Fit files (mention :: mentions) ↔ mention.ending? files = none ∧ Fit files mentions :=
  List.forall_mem_cons

theorem Fit.without (fit : Fit files (Mention.ofArguments arguments)) :
    Fit files (Mention.ofArguments (arguments.without switch)) :=
  fun mention named => fit mention (mem_of_arguments_without named)

end PostfixSheet.CommandLine
