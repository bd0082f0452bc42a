import InfixCalc.Proofs.Contents
import InfixCalc.Proofs.PostfixText
/-!
# The lines of an outline

A node of a tree is found by the sides to take on the way from the root, and its place on the page is
told by that way alone: how many steps it has is how far the line of the node is indented, and the lines
stand in the order in which a parent comes before its children and all that is on the left before all
that is on the right. What the lines say, read from top to bottom, are the prefix words of the tree.

Main statements:

* `Expr.mem_nodes_iff`, `Expr.pairwise_nodes`: the list of the nodes is complete and in that order;
* `Expr.toList_outlineLines`: the lines of an outline, node by node;
* `outline_lines`.
-/

namespace InfixCalc

open Workbench

namespace Expr

/-! ## Nodes -/

/-- The subtree that is reached from the root by taking these sides. -/
def subtree? : Expr → List Side → Option Expr
  | t, [] => some t
  | number _, _ :: _ => none
  | binary _ l _, .left :: way => l.subtree? way
  | binary _ _ r, .right :: way => r.subtree? way

/-- The way to a parent comes before the ways on from it, and of these those that go on to the left come
before those that go on to the right. -/
inductive Precedes : List Side → List Side → Prop
  | ancestor (side : Side) (way : List Side) : Precedes [] (side :: way)
  | sides (way way' : List Side) : Precedes (.left :: way) (.right :: way')
  | cons (side : Side) {way way' : List Side} : Precedes way way' →
    Precedes (side :: way) (side :: way')

/-- The ways to all nodes of a tree, and the subtrees that they lead to. -/
def nodes : Expr → List (List Side × Expr)
  | number v => [([], number v)]
  | binary op l r => ([], binary op l r) ::
      (l.nodes.map (fun (way, node) => (.left :: way, node)) ++
        r.nodes.map (fun (way, node) => (.right :: way, node)))

theorem mem_nodes_iff {t : Expr} {way : List Side} {node : Expr} :
    (way, node) ∈ t.nodes ↔ t.subtree? way = some node := by
  induction t generalizing way with
  | number v => cases way <;> simp [nodes, subtree?, eq_comm]
  | binary op l r ihl ihr =>
    match way with
    | [] => simp [nodes, subtree?, eq_comm]
    | .left :: way => simp [nodes, subtree?, ← ihl]
    | .right :: way => simp [nodes, subtree?, ← ihr]

/-- The nodes are listed in pre-order. -/
theorem pairwise_nodes (t : Expr) : t.nodes.Pairwise fun a b => Precedes a.1 b.1 := by
  induction t with
  | number v => exact List.pairwise_singleton ..
  | binary op l r ihl ihr =>
    rw [nodes, List.pairwise_cons, List.pairwise_append, List.pairwise_map, List.pairwise_map]
    refine ⟨fun node hnode => ?_, ihl.imp (.cons .left), ihr.imp (.cons .right), ?_⟩
    · rcases List.mem_append.mp hnode with hnode | hnode
      all_goals
        obtain ⟨_, -, rfl⟩ := List.mem_map.mp hnode
        exact .ancestor ..
    · intro node hnode node' hnode'
      obtain ⟨_, -, rfl⟩ := List.mem_map.mp hnode
      obtain ⟨_, -, rfl⟩ := List.mem_map.mp hnode'
      exact .sides ..

theorem length_nodes (t : Expr) : t.nodes.length = t.size := by
  induction t with
  | number v => rfl
  | binary op l r ihl ihr =>
    simp [nodes, size, ihl, ihr]
    omega

theorem length_lt_height {t : Expr} {way : List Side} {node : Expr}
    (h : t.subtree? way = some node) : way.length < t.height := by
  induction t generalizing way with
  | number v =>
    cases way with
    | nil => exact Nat.one_pos
    | cons side way => cases h
  | binary op l r ihl ihr =>
    match way with
    | [] => exact Nat.lt_add_right _ Nat.one_pos
    | .left :: way =>
      have hlt := ihl h
      rw [height, List.length_cons]
      omega
    | .right :: way =>
      have hlt := ihr h
      rw [height, List.length_cons]
      omega

/-- Some way has as many nodes on it as the tree has levels. -/
theorem exists_longest (t : Expr) :
    ∃ way node, t.subtree? way = some node ∧ way.length + 1 = t.height := by
  induction t with
  | number v => exact ⟨[], _, rfl, rfl⟩
  | binary op l r ihl ihr =>
    rcases Nat.le_total l.height r.height with hle | hle
    · obtain ⟨way, node, hnode, hlength⟩ := ihr
      refine ⟨.right :: way, node, hnode, ?_⟩
      rw [height, List.length_cons]
      omega
    · obtain ⟨way, node, hnode, hlength⟩ := ihl
      refine ⟨.left :: way, node, hnode, ?_⟩
      rw [height, List.length_cons]
      omega

/-! ## What is said about a node -/

/-- The symbol or the number at the root. -/
def word : Expr → String
  | number v => v.text
  | binary op _ _ => op.text

/-- What the line of a node says. -/
def heading : Expr → String
  | number v => "Operand: " ++ v.text
  | binary op _ _ => "Operator: " ++ op.text

/-- What stands behind the last blank of a line. -/
def lastWord (line : List Char) : List Char := (line.reverse.takeWhile (· ≠ ' ')).reverse

theorem isWord_word (t : Expr) : IsWord t.word := by
  cases t with
  | number v => exact v.isWord_text
  | binary op l r => exact op.isWord_text

theorem prefixWords_eq (t : Expr) : t.prefixWords = t.nodes.map (·.2.word) := by
  induction t with
  | number v => rfl
  | binary op l r ihl ihr =>
    simp only [prefixWords, nodes, List.map_cons, List.map_append, List.map_map, ihl, ihr]
    rfl

end Expr

/-- White space of any kind does not occur in a word. -/
theorem Workbench.IsWord.not_mem {text : String} (h : IsWord text) {c : Char}
    (hc : Text.isWhiteSpace c = true) : c ∉ text.toList := by
  intro hmem
  have hany := List.any_eq_false.mp h.2 c hmem
  exact hany hc

namespace Expr

theorem lastWord_append {front word : List Char} (h : ' ' ∉ word) :
    lastWord (front ++ ' ' :: word) = word := by
  have hword : ∀ c ∈ word.reverse, decide (c ≠ ' ') = true := by
    intro c hc
    have hne : c ≠ ' ' := fun heq => h (heq ▸ List.mem_reverse.mp hc)
    exact decide_eq_true hne
  have hreverse : (front ++ ' ' :: word).reverse = word.reverse ++ ' ' :: front.reverse := by simp
  rw [lastWord, hreverse, List.takeWhile_append_of_pos hword,
    List.takeWhile_cons_of_neg (by decide), List.append_nil, List.reverse_reverse]

/-- The last word of a line is the symbol or the number of its node. -/
theorem lastWord_heading (margin : List Char) (t : Expr) :
    lastWord (margin ++ t.heading.toList) = t.word.toList := by
  have hblank := t.isWord_word.not_mem (c := ' ') rfl
  cases t with
  | number v =>
    have hline : margin ++ (number v).heading.toList =
        margin ++ "Operand:".toList ++ ' ' :: v.text.toList := by simp [heading]
    rw [hline]
    exact lastWord_append hblank
  | binary op l r =>
    have hline : margin ++ (binary op l r).heading.toList =
        margin ++ "Operator:".toList ++ ' ' :: op.text.toList := by simp [heading]
    rw [hline]
    exact lastWord_append hblank

theorem newline_not_mem_heading (t : Expr) : '\n' ∉ t.heading.toList := by
  have hword := t.isWord_word.not_mem (c := '\n') rfl
  cases t with
  | number v => simpa [heading, word] using hword
  | binary op l r => simpa [heading, word] using hword

/-! ## Lines -/

/-- The line of a node that is some levels below the root. -/
def line (indent : List Char) (level : Nat) (node : Expr) : List Char :=
  indent ++ List.replicate (2 * level) ' ' ++ node.heading.toList

theorem line_indented (indent : List Char) (level : Nat) (node : Expr) :
    line (indent ++ [' ', ' ']) level node = line indent (level + 1) node := by
  have hblanks : List.replicate (2 * (level + 1)) ' ' = ' ' :: ' ' :: List.replicate (2 * level) ' ' :=
    rfl
  simp [line, hblanks]

/-- The line of a child has two columns more in front. -/
theorem line_succ (indent : List Char) (level : Nat) (node : Expr) :
    line indent (level + 1) node =
      indent ++ List.replicate (2 * level) ' ' ++ [' ', ' '] ++ node.heading.toList := by
  rw [line, Nat.mul_succ, ← List.replicate_append_replicate, ← List.append_assoc indent]
  rfl

/-- **The lines of an outline are those of the nodes in pre-order,** each indented by two columns for each
level that it is below the root. -/
theorem toList_outlineLines (indent : String) (t : Expr) :
    (t.outlineLines indent).map String.toList =
      t.nodes.map fun (way, node) => line indent.toList way.length node := by
  induction t generalizing indent with
  | number v => simp [outlineLines, nodes, line, heading]
  | binary op l r ihl ihr =>
    have hindent : (indent ++ "  ").toList = indent.toList ++ [' ', ' '] := by simp
    simp only [outlineLines, nodes, List.map_cons, List.map_append, List.map_map, ihl, ihr, hindent,
      line_indented]
    simp [line, heading, Function.comp_def]

theorem newline_not_mem_line {indent : List Char} (h : '\n' ∉ indent) (level : Nat) (node : Expr) :
    '\n' ∉ line indent level node := by
  simp [line, h, newline_not_mem_heading]

/-- Cutting an outline at its newlines gives its lines. -/
theorem splitOn_outline {indent : String} (h : '\n' ∉ indent.toList) (t : Expr) :
    (t.outline indent).toList.splitOn '\n' =
      t.nodes.map fun (way, node) => line indent.toList way.length node := by
  rw [outline, String.toList_intercalate, ← toList_outlineLines]
  apply List.splitOn_intercalate
  · intro row hrow
    rw [toList_outlineLines] at hrow
    obtain ⟨⟨way, node⟩, -, rfl⟩ := List.mem_map.mp hrow
    exact newline_not_mem_line h _ _
  · simp [outlineLines_ne_nil]

/-! ## Words -/

/-- Cutting a text at its blanks gives its words. -/
theorem splitOn_intercalate_words {words : List String} (hne : words ≠ [])
    (h : ∀ word ∈ words, IsWord word) :
    (" ".intercalate words).toList.splitOn ' ' = words.map String.toList := by
  rw [String.toList_intercalate]
  apply List.splitOn_intercalate
  · intro word hword
    obtain ⟨word, hmem, rfl⟩ := List.mem_map.mp hword
    exact (h word hmem).not_mem rfl
  · simpa using hne

theorem isWord_of_mem_prefixWords {t : Expr} {word : String} (h : word ∈ t.prefixWords) :
    IsWord word := by
  rw [prefixWords_eq] at h
  obtain ⟨⟨way, node⟩, -, rfl⟩ := List.mem_map.mp h
  exact node.isWord_word

theorem isWord_of_mem_postfixWords {t : Expr} {word : String} (h : word ∈ t.postfixWords) :
    IsWord word := by
  induction t with
  | number v =>
    obtain rfl := List.mem_singleton.mp h
    exact v.isWord_text
  | binary op l r ihl ihr =>
    rcases List.mem_append.mp h with h | h
    · rcases List.mem_append.mp h with h | h
      · exact ihl h
      · exact ihr h
    · obtain rfl := List.mem_singleton.mp h
      exact op.isWord_text

/-- The text consists of this many words with single blanks between them. -/
def HasWords (text : String) (count : Nat) : Prop :=
  (text.toList.splitOn ' ').length = count ∧ [] ∉ text.toList.splitOn ' '

theorem hasWords_intercalate {words : List String} (hne : words ≠ [])
    (h : ∀ word ∈ words, IsWord word) : HasWords (" ".intercalate words) words.length := by
  rw [HasWords, splitOn_intercalate_words hne h]
  refine ⟨List.length_map _, fun hmem => ?_⟩
  obtain ⟨word, hword, hnil⟩ := List.mem_map.mp hmem
  exact (h word hword).1 hnil

end Expr

open InfixCalc.Expr

/-- What the lines of an outline have to do with the tree. -/
structure IsOutline (t : Expr) (indent : List Char) (lines : List (List Char)) : Prop where
  length_eq : lines.length = t.size
  /-- The lines belong to the nodes, one to each. -/
  eq_map : lines = t.nodes.map fun (way, node) =>
    indent ++ List.replicate (2 * way.length) ' ' ++ node.heading.toList
  mem_nodes (way : List Side) (node : Expr) : (way, node) ∈ t.nodes ↔ t.subtree? way = some node
  preorder : t.nodes.Pairwise fun a b => Precedes a.1 b.1
  /-- No node is more levels below the root than the tree has, and one of them is on the last level. -/
  deepest : (∀ a ∈ t.nodes, a.1.length + 1 ≤ t.height) ∧ ∃ a ∈ t.nodes, a.1.length + 1 = t.height
  /-- The line of a child is indented two columns more than that of its parent. -/
  child {i j : Nat} {way : List Side} {side : Side} {parent child : Expr} :
    t.nodes[i]? = some (way, parent) → t.nodes[j]? = some (way ++ [side], child) →
    ∃ margin, lines[i]? = some (margin ++ parent.heading.toList) ∧
      lines[j]? = some (margin ++ [' ', ' '] ++ child.heading.toList)
  /-- The last words of the lines are the prefix text of the tree. -/
  reads : " ".intercalate (lines.map fun line => String.ofList (lastWord line)) = t.prefixText

/-- **An outline has one line for each node, in pre-order.** The line is indented by two columns for each
level that the node is below the root, so that the lines tell the height of the tree and which node is the
child of which, and what the lines say is the prefix text of the tree. Like the outline its lines, the
prefix text and the postfix text have a word for each node. -/
theorem outline_lines (t : Expr) {indent : String} (h : '\n' ∉ indent.toList) :
    IsOutline t indent.toList ((t.outline indent).toList.splitOn '\n') ∧
    HasWords t.prefixText t.size ∧ HasWords t.postfixText t.size := by
  rw [splitOn_outline h]
  refine ⟨{
    length_eq := by rw [List.length_map, length_nodes]
    eq_map := rfl
    mem_nodes := fun way node => mem_nodes_iff
    preorder := t.pairwise_nodes
    deepest := ⟨fun a ha => length_lt_height (mem_nodes_iff.mp ha), ?_⟩
    child := fun {i j way side parent child} hi hj => ?_
    reads := ?_ }, ?_, ?_⟩
  · obtain ⟨way, node, hnode, hlength⟩ := t.exists_longest
    exact ⟨(way, node), mem_nodes_iff.mpr hnode, hlength⟩
  · refine ⟨indent.toList ++ List.replicate (2 * way.length) ' ', ?_, ?_⟩
    · rw [List.getElem?_map, hi]
      rfl
    · simp only [List.getElem?_map, hj, Option.map_some, List.length_append, List.length_singleton,
        line_succ]
  · rw [prefixText, prefixWords_eq, List.map_map]
    refine congrArg (" ".intercalate ·) (List.map_congr_left fun a _ => ?_)
    exact (congrArg String.ofList (lastWord_heading _ a.2)).trans String.ofList_toList
  · rw [← length_nodes, ← List.length_map (·.2.word), ← prefixWords_eq]
    exact hasWords_intercalate t.prefixWords_ne_nil fun _ => isWord_of_mem_prefixWords
  · rw [← length_postfixWords]
    exact hasWords_intercalate t.postfixWords_ne_nil fun _ => isWord_of_mem_postfixWords

/-- The indent need not be blank, and the words of the numbers may be any. -/
theorem outline_lines_marked :
    let t : Expr := .binary .divide (.number (.finite true .zero))
      (.binary .power (.number (.nan false)) (.number (.infinite true)))
    '\n' ∉ "| ".toList ∧
      IsOutline t "| ".toList (["| Operator: /", "|   Operand: -0", "|   Operator: ^",
        "|     Operand: NaN", "|     Operand: -inf"].map String.toList) ∧
      HasWords "/ -0 ^ NaN -inf" 5 := by
  intro t
  have hindent : '\n' ∉ "| ".toList := by simp
  have hlines : (t.outline "| ").toList.splitOn '\n' = ["| Operator: /", "|   Operand: -0",
      "|   Operator: ^", "|     Operand: NaN", "|     Operand: -inf"].map String.toList := by
    decide +kernel
  have htext : t.prefixText = "/ -0 ^ NaN -inf" := by decide +kernel
  obtain ⟨houtline, hwords, -⟩ := outline_lines t hindent
  rw [hlines] at houtline
  rw [htext] at hwords
  exact ⟨hindent, houtline, hwords⟩

end InfixCalc
