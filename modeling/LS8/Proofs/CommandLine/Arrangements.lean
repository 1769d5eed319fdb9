import LS8.Proofs.CommandLine.ItemOrder

/-!
# Arrangements of arguments

The same items can be written in any order, the limit as one argument or as two, and
the path behind two dashes at the end.  None of this makes a difference to the report.
The arguments are refused only for the text of a limit that is no number of 64 bits.
-/

namespace LS8
namespace CommandLine

/-- The arguments write a list of items, one behind the other; two dashes may stand
before a path at the end. -/
inductive Writes : List Item → List String → Prop
  | nil : Writes [] []
  | path (text : String) {items : List Item} {arguments : List String} :
      Writes items arguments →
      Writes (.path text :: items) (text :: arguments)
  | pathBehindDashes (text : String) :
      Writes [.path text] ["--", text]
  | trace {items : List Item} {arguments : List String} :
      Writes items arguments →
      Writes (.trace :: items) ("--trace" :: arguments)
  | strict {items : List Item} {arguments : List String} :
      Writes items arguments →
      Writes (.strict :: items) ("--strict" :: arguments)
  | limitInOne (text : String) {items : List Item} {arguments : List String} :
      Writes items arguments →
      Writes (.limit text :: items) (("--max-steps=" ++ text) :: arguments)
  | limitInTwo (text : String) {items : List Item} {arguments : List String} :
      Writes items arguments →
      Writes (.limit text :: items) ("--max-steps" :: text :: arguments)

theorem isOptionLike_eq_false
    {text : String}
    (plain : text = "-" ∨ text.toList.head? ≠ some '-') :
    isOptionLike text = false := by
  rcases plain with rfl | plain
  · decide
  · unfold isOptionLike
    split
    case h_1 first rest text_eq =>
      rw [text_eq] at plain
      exact absurd rfl plain
    case h_2 => rfl

/-- Arguments are cut into the items that they write. -/
theorem Writes.items_eq
    {order : List Item}
    {arguments : List String}
    (writes : Writes order arguments)
    (plain : ∀ item ∈ order, item.IsPlain) :
    items arguments = order := by
  rw [items]
  induction writes with
  | nil => rfl
  | path text _ inductionHypothesis =>
      rw [List.forall_mem_cons] at plain
      rw [itemsFrom, Argument.ofText_of_not_optionLike plain.1]
      exact congrArg _ (inductionHypothesis plain.2)
  | pathBehindDashes text =>
      rw [itemsFrom, Argument.ofText_endOfOptions]
      rfl
  | trace _ inductionHypothesis =>
      rw [itemsFrom, Argument.ofText_trace]
      exact congrArg _ (inductionHypothesis (List.forall_mem_cons.mp plain).2)
  | strict _ inductionHypothesis =>
      rw [itemsFrom, Argument.ofText_strict]
      exact congrArg _ (inductionHypothesis (List.forall_mem_cons.mp plain).2)
  | limitInOne text _ inductionHypothesis =>
      rw [itemsFrom, Argument.ofText_limit]
      exact congrArg _ (inductionHypothesis (List.forall_mem_cons.mp plain).2)
  | limitInTwo text _ inductionHypothesis =>
      rw [List.forall_mem_cons] at plain
      have unlike : isOptionLike text = false := plain.1
      rw [itemsFrom, Argument.ofText_limitOption]
      dsimp only
      rw [itemsFrom, unlike, if_neg Bool.false_ne_true]
      exact congrArg _ (inductionHypothesis plain.2)

/-- Arguments that write, in some order, the items for a path, the flags that are set,
and a limit if there is a text for one. -/
def Arranges
    (path : String)
    (tracing strict : Bool)
    (limit : Option String)
    (arguments : List String) : Prop :=
  ∃ order,
    order.Perm (wantedItems path tracing strict limit) ∧ Writes order arguments

/-- The items of the arguments are the wanted ones, in some order. -/
theorem Arranges.perm_items
    {path : String}
    {tracing strict : Bool}
    {limit : Option String}
    {arguments : List String}
    (arranges : Arranges path tracing strict limit arguments)
    (plain : path = "-" ∨ path.toList.head? ≠ some '-')
    (limit_plain : ∀ text ∈ limit, text.toList.head? ≠ some '-') :
    (items arguments).Perm (wantedItems path tracing strict limit) := by
  obtain ⟨order, permuted, writes⟩ := arranges
  have items_eq : items arguments = order := by
    apply writes.items_eq
    intro item member
    rcases mem_wantedItems_cases (permuted.subset member) with
      rfl | rfl | rfl | ⟨text, given, rfl⟩
    · exact isOptionLike_eq_false plain
    · trivial
    · trivial
    · exact isOptionLike_eq_false (.inr (limit_plain text given))
  rw [items_eq]
  exact permuted

/-- No run and no failure to load a program has the exit for arguments that are not
accepted. -/
theorem code_execute_ne_one (files : FileSystem) (request : Request) :
    (execute files request).exit.code ≠ 1 := by
  obtain ⟨path, configuration⟩ := request
  rcases loads_or_unloadable files path with ⟨image, loads⟩ | ⟨error, unloadable⟩
  · rw [loads.execute_eq]
    cases (ready configuration image).run.2 <;>
      simp [runReport, runFailure?, Exit.code]
  · rw [unloadable.execute_eq]
    cases unloadable <;> simp [loadReport, Exit.code]

/-- The order of the arguments and the way to write the limit make no difference, and
only a limit that is no number of 64 bits is refused. -/
theorem arguments_in_any_order
    {path : String}
    (nonempty : path ≠ "")
    (plain : path = "-" ∨ path.toList.head? ≠ some '-')
    (tracing strict : Bool)
    {limit : Option String}
    (limit_plain : ∀ text ∈ limit, text.toList.head? ≠ some '-') :
    (∀ first second,
        Arranges path tracing strict limit first →
          Arranges path tracing strict limit second →
            ∀ files, invoke files first = invoke files second) ∧
      ∀ arguments, Arranges path tracing strict limit arguments →
        (∀ request,
          read arguments = .ok (.execute request) ↔
            ∃ bound,
              GivesLimit limit bound ∧
                request = ⟨path, settings strict tracing bound⟩) ∧
          (∀ files,
            (invoke files arguments).exit.code = 1 ↔
              ¬∃ bound, GivesLimit limit bound) ∧
          ((¬∃ bound, GivesLimit limit bound) →
            ∃ report : Report,
              report.exit.code = 1 ∧
                report.stdout = "" ∧
                ∀ files, invoke files arguments = report) := by
  have permuted {arguments} (arranges : Arranges path tracing strict limit arguments) :
      (items arguments).Perm (wantedItems path tracing strict limit) :=
    arranges.perm_items plain limit_plain
  by_cases given : ∃ bound, GivesLimit limit bound
  · obtain ⟨bound, gives⟩ := given
    have accepted {arguments} (arranges : Arranges path tracing strict limit arguments) :
        read arguments = .ok (.execute ⟨path, settings strict tracing bound⟩) :=
      take_of_perm nonempty (permuted arranges) gives
    refine ⟨?_, fun arguments arranges => ⟨?_, ?_, ?_⟩⟩
    · intro first second first_arranges second_arranges files
      rw [invoke_of_accepted (accepted first_arranges),
        invoke_of_accepted (accepted second_arranges)]
    · intro request
      rw [accepted arranges]
      constructor
      · intro request_eq
        exact ⟨bound, gives, (Command.execute.inj (Except.ok.inj request_eq)).symm⟩
      · rintro ⟨other, other_gives, rfl⟩
        rw [(givesLimit_iff.mp gives).2, (givesLimit_iff.mp other_gives).2]
    · intro files
      rw [invoke_of_accepted (accepted arranges)]
      exact iff_of_false (code_execute_ne_one files _) (not_not_intro ⟨bound, gives⟩)
    · exact absurd ⟨bound, gives⟩
  · obtain ⟨text, rfl, unreadable⟩ := not_exists_givesLimit_iff.mp given
    have refused {arguments}
        (arranges : Arranges path tracing strict (some text) arguments) :
        read arguments = .error (.invalidLimit text) :=
      take_of_perm_of_unreadable nonempty (permuted arranges) unreadable
    refine ⟨?_, fun arguments arranges => ⟨?_, ?_, ?_⟩⟩
    · intro first second first_arranges second_arranges files
      rw [invoke_of_refused (refused first_arranges),
        invoke_of_refused (refused second_arranges)]
    · intro request
      rw [refused arranges]
      exact iff_of_false nofun fun ⟨bound, gives, _⟩ => given ⟨bound, gives⟩
    · intro files
      rw [invoke_of_refused (refused arranges)]
      exact iff_of_true rfl given
    · intro _
      exact ⟨_, rfl, rfl, invoke_of_refused (refused arranges)⟩

/-- Arguments in two orders, with a limit of three digits, and arguments with a limit
that is too large by one. -/
theorem arguments_in_any_order_scattered :
    let scattered := ["--max-steps", "+007", "--strict", "-", "--trace"]
    let sorted := ["--trace", "--strict", "--max-steps=+007", "--", "-"]
    let excessive := ["a.ls8", "--max-steps", "18446744073709551616"]
    (∀ files, invoke files scattered = invoke files sorted) ∧
      read scattered = .ok (.execute ⟨"-", settings true true (some 7)⟩) ∧
      ∃ report : Report,
        report.exit.code = 1 ∧
          report.stdout = "" ∧
          ∀ files, invoke files excessive = report := by
  intro scattered sorted excessive
  have scattered_arranges : Arranges "-" true true (some "+007") scattered :=
    ⟨[.limit "+007", .strict, .path "-", .trace], by decide,
      .limitInTwo _ (.strict (.path _ (.trace .nil)))⟩
  have sorted_arranges : Arranges "-" true true (some "+007") sorted :=
    ⟨[.trace, .strict, .limit "+007", .path "-"], by decide,
      .trace (.strict (.limitInOne _ (.pathBehindDashes _)))⟩
  have excessive_arranges :
      Arranges "a.ls8" false false (some "18446744073709551616") excessive :=
    ⟨_, .rfl, .path _ (.limitInTwo _ .nil)⟩
  have limit_plain : ∀ text ∈ some "+007", text.toList.head? ≠ some '-' := by
    decide
  have excessive_plain :
      ∀ text ∈ some "18446744073709551616", text.toList.head? ≠ some '-' := by
    decide
  have gives : GivesLimit (some "+007") (some 7) := givesLimit_iff.mpr (by decide)
  have unreadable : ¬∃ bound, GivesLimit (some "18446744073709551616") bound :=
    not_exists_givesLimit_iff.mpr ⟨_, rfl, by decide⟩
  obtain ⟨alike, accepted⟩ :=
    arguments_in_any_order (by decide : "-" ≠ "") (.inl rfl) true true limit_plain
  obtain ⟨_, refused⟩ :=
    arguments_in_any_order (by decide : "a.ls8" ≠ "") (.inr (by decide)) false false
      excessive_plain
  exact ⟨alike scattered sorted scattered_arranges sorted_arranges,
    ((accepted scattered scattered_arranges).1 _).mpr ⟨_, gives, rfl⟩,
    (refused excessive excessive_arranges).2.2 unreadable⟩

end CommandLine
end LS8
