import SpsAssembler.Proofs.Stability

/-!
# The names of symbols

A key is entered only where no symbol has it, so no two symbols of a table have the same name, and
every symbol is the one that its name stands for. Behind the first pass it is the label of a line.

* `SymbolTable.Distinct`, `SymbolTable.get?_of_mem`;
* `evaluateIn_distinct`, **`Leads.distinct`**: evaluating operands keeps names apart;
* **`distinct_of_handleLine`**, `Visits.distinct`: one line, and a row of lines;
* **`TwoPasses.symbol_cases`**: where the symbols of a program come from.
-/

namespace SpsAssembler

/-! ## Tables -/

namespace SymbolTable

variable {t : SymbolTable} {s : Symbol}

/-- No two symbols have the same name. -/
def Distinct (t : SymbolTable) : Prop := (t.symbols.map Symbol.name).Nodup

theorem get?_of_mem (h : t.Distinct) (hs : s ∈ t.symbols) : t.get? s.name = some s := by
  unfold get?
  unfold Distinct at h
  generalize t.symbols = symbols at h hs ⊢
  induction symbols with
  | nil => cases hs
  | cons r rest ih =>
    rw [List.map_cons, List.nodup_cons] at h
    rcases List.mem_cons.mp hs with rfl | hs
    · simp
    · have hne : r.name ≠ s.name := fun heq => h.1 (heq ▸ List.mem_map_of_mem hs)
      rw [List.find?_cons_of_neg (by simpa using hne)]
      exact ih h.2 hs

theorem names_referTo (t : SymbolTable) (key : Text) (line : Word) :
    (t.referTo key line).symbols.map Symbol.name = t.symbols.map Symbol.name := by
  unfold SymbolTable.referTo
  rw [List.map_map]
  congr 1
  funext r
  by_cases hr : r.name = key <;> simp [hr, Symbol.referTo]

theorem Distinct.referTo (h : t.Distinct) (key : Text) (line : Word) :
    (t.referTo key line).Distinct := by
  unfold Distinct
  rwa [names_referTo]

theorem Distinct.enter (h : t.Distinct) (hfree : t.get? s.name = none) : (t.enter s).Distinct := by
  unfold Distinct SymbolTable.enter
  rw [List.map_append]
  refine List.nodup_append.mpr ⟨h, by simp, ?_⟩
  intro name hname name' hname' heq
  obtain ⟨r, hr, rfl⟩ := List.mem_map.mp hname
  obtain rfl : name' = s.name := by simpa using hname'
  have hnone := List.find?_eq_none.mp hfree r hr
  simp [heq] at hnone

theorem Distinct.resolve (h : t.Distinct) (key : Text) (line : Word) (ordered entering : Bool) :
    (t.resolve key line ordered entering).table.Distinct := by
  rcases t.resolve_table key line ordered entering with ht | ht | ⟨hfree, -, ht⟩ <;> rw [ht]
  · exact h
  · exact h.referTo key line
  · exact h.enter hfree

theorem Distinct.lookup (h : t.Distinct) (name : Text) (line : Word) (ordered : Bool) (head : Byte)
    (entering : Bool) : (t.lookup name line ordered head entering).table.Distinct := by
  rcases t.lookup_cases name line ordered head entering with ⟨ht, -⟩ | ⟨key, ht, -⟩ <;> rw [ht]
  · exact h
  · exact h.resolve ..

theorem Distinct.define (h : t.Distinct) (name : Text) (address : Word) (kind : Kind) (line : Word)
    (head : Byte) : (t.define name address kind line head).1.Distinct := by
  rcases t.define_cases name address kind line head with ⟨hd, -⟩ | ⟨c, hd⟩ | ⟨hd, -, hfree⟩
  · rw [hd]
    exact h
  · rw [hd]
    exact h
  · rw [hd]
    exact h.enter (bare?_eq_none.mp hfree)

end SymbolTable

/-! ## Operands and steps -/

theorem evaluateIn_distinct {t : SymbolTable} (h : t.Distinct) (scope : Scope) (usage : Usage)
    (operand : Text) : (evaluateIn scope usage t operand).table.Distinct :=
  evaluateIn_keeps operand (fun _ name _ hu => hu.lookup name ..) h

variable {s : Statement} {a b : Assembly} {o : Outcome} {processed : Bool}

/-- **Acts keep names apart.** -/
theorem Leads.distinct {reach : Reach} (h : Leads reach a b) (ha : a.symbols.Distinct) :
    b.symbols.Distinct := by
  induction h with
  | refl => exact ha
  | tail _ hbc ih =>
    cases hbc with
    | evaluate _ operand usage => exact evaluateIn_distinct ih _ usage operand
    | _ => exact ih

theorem layOut_distinct (h : a.symbols.Distinct) : (layOut s a).2.symbols.Distinct := by
  have hbefore : (beforeLabel s a).symbols.Distinct :=
    (beforeLabel_of_place s a).distinct ((place_within s a).distinct h)
  rw [layOut_apply]
  dsimp only
  split
  · rcases defineLabel_apply s (place s a).1 (beforeLabel s a) with ⟨-, hd⟩ | ⟨-, hd⟩
    · rw [hd]
      exact hbefore.define ..
    · rw [hd]
      exact hbefore
  · exact hbefore

theorem Processed.distinct (h : Processed s a o b) (ha : a.symbols.Distinct) :
    b.symbols.Distinct := by
  have hlaid : (layOut s a).2.symbols.Distinct := layOut_distinct ha
  rcases h.core with ⟨-, -, rfl⟩ | ⟨-, c, hc, hs⟩
  · exact hlaid
  · rw [(store_symbols hs).1]
    exact (encode_leads hc).distinct hlaid

/-- **One line** keeps names apart. -/
theorem distinct_of_handleLine {line : Line} (h : handleLine line a = .ok (o, processed) b)
    (ha : a.symbols.Distinct) : b.symbols.Distinct := by
  have hparsed : (parse line (a.atLine line.number)).2.symbols.Distinct :=
    (parse_leads line a).distinct ha
  cases handles_of_handleLine h with
  | comment => exact hparsed
  | processed _ _ hp => exact (processed_of_process hp).distinct hparsed
  | beyond => exact hparsed
  | overrun => exact hparsed

theorem Visits.distinct {vs : List Visit} (h : Visits a vs b) (ha : a.symbols.Distinct) :
    b.symbols.Distinct := by
  induction h with
  | nil hrests => rwa [hrests.symbols_eq]
  | cons hrests hv _ ih => exact ih (distinct_of_handleLine hv (by rwa [hrests.symbols_eq]))

/-! ## Programs -/

section Programs

variable {options : Options} {first second : Reading Line} {run : Run} {program : Program}
  {c d : Assembly}

theorem TwoPasses.distinct (h : TwoPasses options first second run program a b c d) :
    program.symbols.Distinct := by
  obtain ⟨vs, ws, hvs, hws, -⟩ := h.visits
  obtain ⟨-, -, hsymbols⟩ := h.aligned
  have hstart : (a.reset 1).symbols.Distinct := by
    rw [(start_eq h.start).2]
    exact List.nodup_nil
  rw [h.program_eq]
  exact hws.distinct (by rw [hsymbols]; exact hvs.distinct hstart)

/-- **A symbol of a program** was entered for its references, without a definition, or it is the label
of a line of the first pass. -/
theorem TwoPasses.symbol_cases (h : TwoPasses options first second run program a b c d)
    {vs : List Visit} (hvs : Visits (a.reset 1) vs b) {s : Symbol} (hs : s ∈ program.symbols.symbols) :
    s.bare = { name := s.name } ∨
      ∃ v ∈ vs, v.outcome.statement.kind.definesLabel = true ∧
        s.bare = labelSymbol v.outcome.statement v.outcome.placement v.before.head v.line.number := by
  obtain ⟨-, ws, -, hws, -⟩ := h.visits
  obtain ⟨-, hpass, hsymbols⟩ := h.aligned
  have hbare : d.symbols.bare? s.name = some s.bare := by
    rw [h.program_eq] at hs
    have hdistinct := h.distinct
    rw [h.program_eq] at hdistinct
    exact SymbolTable.bare?_of_get? (SymbolTable.get?_of_mem hdistinct hs)
  rcases (hws.noted hpass).bare s.name with hsame | ⟨-, -, hnew⟩
  · right
    rw [hbare, hsymbols] at hsame
    rcases hvs.entered rfl s.name with hstart | ⟨-, v, hv, hlabel, hkind, -⟩
    · rw [← hsame, (start_eq h.start).2] at hstart
      cases hstart
    · rw [← hsame] at hlabel
      exact ⟨v, hv, hkind, Option.some.inj hlabel⟩
  · rw [hbare] at hnew
    exact .inl (Option.some.inj hnew)

end Programs

end SpsAssembler
