import InfixCalc.Proofs.CommandLine
/-!
# What is accepted

The conversion does not look at what stands next to an operator, only at the order that comes out. So a
missing operand goes unnoticed if another operand is juxtaposed, and never otherwise.

Main statements: `Expr.isInfix_iff_of_parse` and `Expr.parse_eq_ok_iff_derives`.
-/

namespace InfixCalc

/-- Every text that is parsed misses as many operands as it has juxtapositions. -/
theorem Expr.vacancies_of_parse {source : String} {t : Expr} (h : parse source = .ok t) :
    vacancies false (Token.ofSource source) = juxtapositions false (Token.ofSource source) := by
  have hbalance := numbers_add_vacancies false (Token.ofSource source)
  have hnumbers := numbers_of_parse h
  simp only [Bool.toNat_false] at hbalance
  omega

theorem Expr.isInfix_iff_of_parse {source : String} {t : Expr} (h : parse source = .ok t) :
    IsInfix (Token.ofSource source) ↔ juxtapositions false (Token.ofSource source) = 0 := by
  have hvacant := vacancies_of_parse h
  rw [isInfix_iff]
  constructor
  · rintro ⟨-, hjuxta, -⟩
    exact hjuxta
  · intro hjuxta
    exact ⟨openGroups?_of_parse h, hjuxta, hvacant.trans hjuxta⟩

/-- Without juxtapositions, exactly the expressions are parsed whose tree is not too high. -/
theorem Expr.parse_eq_ok_iff_derives {source : String} {t : Expr}
    (hjuxta : juxtapositions false (Token.ofSource source) = 0) :
    parse source = .ok t ↔
      Derives .sum (Token.ofSource source) t ∧ t.height ≤ Postfix.maxHeight := by
  constructor
  · intro h
    obtain ⟨u, hu⟩ := ((isInfix_iff_of_parse h).mpr hjuxta).exists_derives (readable_of_parse h)
    rw [hu.parse_eq, Postfix.limited] at h
    split at h
    · cases h
      exact ⟨hu, ‹_›⟩
    · cases h
  · rintro ⟨ht, hheight⟩
    rw [ht.parse_eq, Postfix.limited, if_pos hheight]

/-- **Only infix expressions are accepted, as long as no two operands are juxtaposed.** Then a text is
parsed exactly if it is an expression whose tree is not too high, and any other text makes parsing and
the check fail. A text that is parsed all the same is an expression exactly if it has no juxtaposition,
and misses one operand for each juxtaposition that it has. -/
theorem accepts_infix_without_juxtaposition (source : String) :
    (juxtapositions false (Token.ofSource source) = 0 →
      (∀ t, Expr.parse source = .ok t ↔
        Derives .sum (Token.ofSource source) t ∧ t.height ≤ Postfix.maxHeight) ∧
      (¬ IsInfix (Token.ofSource source) →
        (∃ e, Expr.parse source = .error e) ∧
        ∀ env verbose, ∃ output,
          CommandLine.perform env (.command (.check source) verbose) = .finished 1 output)) ∧
    ∀ t, Expr.parse source = .ok t →
      (IsInfix (Token.ofSource source) ↔ juxtapositions false (Token.ofSource source) = 0) ∧
      vacancies false (Token.ofSource source) = juxtapositions false (Token.ofSource source) := by
  refine ⟨fun hjuxta => ⟨fun t => Expr.parse_eq_ok_iff_derives hjuxta, fun hinfix => ?_⟩,
    fun t h => ⟨Expr.isInfix_iff_of_parse h, Expr.vacancies_of_parse h⟩⟩
  rcases hparse : Expr.parse source with e | t
  · exact ⟨⟨e, rfl⟩, CommandLine.perform_check_of_parse_error hparse⟩
  · exact absurd ((Expr.isInfix_iff_of_parse hparse).mpr hjuxta) hinfix

/-- The quotient misses an operand, and nothing is juxtaposed. -/
theorem accepts_infix_without_juxtaposition_missing :
    juxtapositions false (Token.ofSource "(1 + 2) /") = 0 ∧
      ¬ IsInfix (Token.ofSource "(1 + 2) /") ∧ ∃ e, Expr.parse "(1 + 2) /" = .error e := by
  have hjuxta : juxtapositions false (Token.ofSource "(1 + 2) /") = 0 := by decide +kernel
  have hinfix : ¬ IsInfix (Token.ofSource "(1 + 2) /") := by
    rw [isInfix_iff]
    decide +kernel
  exact ⟨hjuxta, hinfix, (((accepts_infix_without_juxtaposition _).1 hjuxta).2 hinfix).1⟩

/-- A sum in postfix order is parsed, though it is no infix expression: that the numbers are juxtaposed
makes up for the operand that the operator misses. -/
theorem accepts_postfix_order :
    Expr.parse "1 2 +" = .ok (.binary .add (.number (.ofBits 0x3ff0000000000000))
      (.number (.ofBits 0x4000000000000000))) ∧ ¬ IsInfix (Token.ofSource "1 2 +") := by
  refine ⟨by decide +kernel, fun hinfix => ?_⟩
  have hcounts := (isInfix_iff _).mp hinfix
  revert hcounts
  decide +kernel

end InfixCalc
