import Mathlib.Data.List.Forall2
import Offside.Proofs.Parsing.StatementGrammar
import Offside.Proofs.Tree.Lines

/-!
# The same tokens in another place

A tree takes nothing but its lines from the places of its tokens. Tokens of the same kinds form the same
phrases (`Forms.alike`), with the same trees up to lines, and with the same trees if the lines are the
same.
-/

namespace Offside

open Node (mapLine mapLines_eq_map)

/-- What a tree takes from a token, where `g` tells the lines apart. -/
def Token.imprint (g : Nat → Nat) (token : Token) : Token.Kind × Nat := (token.kind, g token.pos.line)

/-- The tokens are of the same kinds, on lines that `g` does not tell apart. -/
def Token.Alike (g : Nat → Nat) (tokens tokens' : List Token) : Prop :=
  tokens'.map (Token.imprint g) = tokens.map (Token.imprint g)

section

variable {g : Nat → Nat} {tokens tokens' : List Token} {node : Node} {nodes : List Node}

namespace Token.Alike

theorem of_kinds (same : tokens'.map Token.kind = tokens.map Token.kind) :
    Token.Alike (fun _ => 0) tokens tokens' := by
  have imprint : Token.imprint (fun _ => 0) = (fun kind => (kind, 0)) ∘ Token.kind := rfl
  rw [Token.Alike, imprint, ← List.map_map, ← List.map_map, same]

theorem of_lines (same : tokens'.map Token.kind = tokens.map Token.kind)
    (lines : tokens'.map (·.pos.line) = tokens.map (·.pos.line)) :
    Token.Alike (fun line => line) tokens tokens' := by
  have imprint : ∀ list : List Token, list.map (Token.imprint fun line => line) =
      (list.map Token.kind).zip (list.map (·.pos.line)) := by
    intro list
    rw [List.zip_map']
    rfl
  rw [Token.Alike, imprint, imprint, same, lines]

theorem kinds (alike : Token.Alike g tokens tokens') : tokens'.map Token.kind = tokens.map Token.kind := by
  have kind : Token.kind = Prod.fst ∘ Token.imprint g := rfl
  rw [kind, ← List.map_map, ← List.map_map, alike]

theorem nil (alike : Token.Alike g [] tokens') : tokens' = [] := List.map_eq_nil_iff.mp alike

theorem cons {token : Token} (alike : Token.Alike g (token :: tokens) tokens') :
    ∃ token' rest, tokens' = token' :: rest ∧ token'.kind = token.kind ∧
      g token'.pos.line = g token.pos.line ∧ Token.Alike g tokens rest := by
  obtain ⟨token', rest, rfl, first, rest'⟩ := List.map_eq_cons_iff.mp alike
  exact ⟨token', rest, rfl, congrArg Prod.fst first, congrArg Prod.snd first, rest'⟩

theorem single {token : Token} (alike : Token.Alike g [token] tokens') :
    ∃ token', tokens' = [token'] ∧ token'.kind = token.kind ∧
      g token'.pos.line = g token.pos.line := by
  obtain ⟨token', rest, rfl, kind, line, none⟩ := alike.cons
  rw [none.nil]
  exact ⟨token', rfl, kind, line⟩

theorem append {first second : List Token} (alike : Token.Alike g (first ++ second) tokens') :
    ∃ first' second', tokens' = first' ++ second' ∧ Token.Alike g first first' ∧
      Token.Alike g second second' := by
  rw [Token.Alike, List.map_append] at alike
  exact List.map_eq_append_iff.mp alike

end Token.Alike

theorem Separated.alike {closing : Punct} {items : List (List Token)}
    (h : Separated closing items tokens) (alike : Token.Alike g tokens tokens') :
    ∃ items', Separated closing items' tokens' ∧ List.Forall₂ (Token.Alike g) items items' := by
  induction h generalizing tokens' with
  | closed closed =>
    obtain ⟨token', rfl, kind, -⟩ := alike.single
    exact ⟨[], .closed (kind.trans closed), .nil⟩
  | last closed =>
    obtain ⟨item', rest, rfl, item, alike⟩ := alike.append
    obtain ⟨token', rfl, kind, -⟩ := alike.single
    exact ⟨[item'], .last (kind.trans closed), .cons item .nil⟩
  | more comma _ ih =>
    obtain ⟨item', rest, rfl, item, alike⟩ := alike.append
    obtain ⟨token', rest, rfl, kind, -, alike⟩ := alike.cons
    obtain ⟨items', separated, each⟩ := ih alike
    exact ⟨item' :: items', .more (kind.trans comma) separated, .cons item each⟩

/-- Where each item is spelled as before, so is the list of them. -/
theorem items_alike {α : Type} {spells : List Token → α → Prop} {same : α → α → Prop}
    {items : List (List Token × α)} {spellings : List (List Token)}
    (each : ∀ item ∈ items, ∀ tokens', Token.Alike g item.1 tokens' → ∃ a, spells tokens' a ∧ same item.2 a)
    (alike : List.Forall₂ (Token.Alike g) (items.map Prod.fst) spellings) :
    ∃ items' : List (List Token × α), items'.map Prod.fst = spellings ∧
      (∀ item ∈ items', spells item.1 item.2) ∧
      List.Forall₂ same (items.map Prod.snd) (items'.map Prod.snd) := by
  induction items generalizing spellings with
  | nil =>
    cases alike
    exact ⟨[], rfl, List.forall_mem_nil _, .nil⟩
  | cons item items ih =>
    cases alike with
    | @cons _ spelling _ spellings first rest =>
      obtain ⟨here, later⟩ := List.forall_mem_cons.mp each
      obtain ⟨a, spelled, known⟩ := here spelling first
      obtain ⟨items', rfl, spelled', known'⟩ := ih later rest
      exact ⟨(spelling, a) :: items', rfl, List.forall_mem_cons.mpr ⟨spelled, spelled'⟩,
        .cons known known'⟩

/-- The trees are the same but for lines that `g` does not tell apart. -/
def Node.Resembles (g : Nat → Nat) (node node' : Node) : Prop := node'.mapLine g = node.mapLine g

theorem mapLines_of_resembles {nodes nodes' : List Node}
    (each : List.Forall₂ (Node.Resembles g) nodes nodes') :
    Node.mapLines g nodes' = Node.mapLines g nodes := by
  induction each with
  | nil => rfl
  | cons first _ ih => rw [Node.mapLines, Node.mapLines, first, ih]

theorem Derives.alike {level : Level} (h : Derives level tokens node)
    (alike : Token.Alike g tokens tokens') :
    ∃ node', Derives level tokens' node' ∧ node.Resembles g node' := by
  unfold Node.Resembles
  induction h generalizing tokens' with
  | tighter _ ih =>
    obtain ⟨node', derives, same⟩ := ih alike
    exact ⟨node', .tighter derives, same⟩
  | binary found chained spelled clear _ _ ih ih' =>
    obtain ⟨left, rest, rfl, first, alike⟩ := alike.append
    obtain ⟨mark, rest, rfl, kind, line, alike⟩ := alike.cons
    obtain ⟨marks, right, rfl, operator, second⟩ := alike.append
    obtain ⟨a, derives, same⟩ := ih first
    obtain ⟨b, derives', same'⟩ := ih' second
    refine ⟨_, .binary found chained ?_ (fun isIs => ?_) derives derives', ?_⟩
    · rw [← spelled, List.map_cons, List.map_cons, kind, operator.kinds]
    · rw [← List.head?_map, second.kinds, List.head?_map]
      exact clear isIs
    · rw [mapLine, mapLine, same, same', line]
  | power spelled _ _ ih ih' =>
    obtain ⟨left, rest, rfl, first, alike⟩ := alike.append
    obtain ⟨mark, right, rfl, kind, line, second⟩ := alike.cons
    obtain ⟨a, derives, same⟩ := ih first
    obtain ⟨b, derives', same'⟩ := ih' second
    refine ⟨_, .power (kind.trans spelled) derives derives', ?_⟩
    rw [mapLine, mapLine, same, same', line]
  | unary spelled _ ih =>
    obtain ⟨mark, operand, rfl, kind, line, alike⟩ := alike.cons
    obtain ⟨a, derives, same⟩ := ih alike
    refine ⟨_, .unary (kind.trans spelled) derives, ?_⟩
    rw [mapLine, mapLine, same, line]
  | identifier spelled =>
    obtain ⟨token, rfl, kind, line⟩ := alike.single
    exact ⟨_, .identifier (kind.trans spelled), by rw [mapLine, mapLine, line]⟩
  | @call _ _ _ _ items spelled opened separated _ ih =>
    obtain ⟨token, rest, rfl, kind, line, alike⟩ := alike.cons
    obtain ⟨opening, rest, rfl, kind', -, alike⟩ := alike.cons
    obtain ⟨spellings, separated', each⟩ := separated.alike alike
    have again : ∀ item ∈ items, ∀ tokens, Token.Alike g item.1 tokens →
        ∃ node, Derives .or tokens node ∧ item.2.Resembles g node := fun item member _ => ih item member
    obtain ⟨items', rfl, derives, same⟩ := items_alike again each
    refine ⟨_, .call (kind.trans spelled) (kind'.trans opened) separated' derives, ?_⟩
    rw [mapLine, mapLine, mapLines_of_resembles same, line]
  | number spelled =>
    obtain ⟨token, rfl, kind, line⟩ := alike.single
    exact ⟨_, .number (kind.trans spelled), by rw [mapLine, mapLine, line]⟩
  | constant spelled known =>
    obtain ⟨token, rfl, kind, line⟩ := alike.single
    exact ⟨_, .constant (kind.trans spelled) known, by rw [mapLine, mapLine, line]⟩
  | text spelled adjacent =>
    obtain ⟨token, rest, rfl, kind, line, alike⟩ := alike.cons
    exact ⟨_, .text (kind.trans spelled) (alike.kinds.trans adjacent), by rw [mapLine, mapLine, line]⟩
  | bytes spelled adjacent =>
    obtain ⟨token, rest, rfl, kind, line, alike⟩ := alike.cons
    exact ⟨_, .bytes (kind.trans spelled) (alike.kinds.trans adjacent), by rw [mapLine, mapLine, line]⟩
  | parenthesized opened closed _ ih =>
    obtain ⟨opening, rest, rfl, kind, -, alike⟩ := alike.cons
    obtain ⟨inner, rest, rfl, first, alike⟩ := alike.append
    obtain ⟨closing, rfl, kind', -⟩ := alike.single
    obtain ⟨node', derives, same⟩ := ih first
    exact ⟨node', .parenthesized (kind.trans opened) (kind'.trans closed) derives, same⟩

/-! ### Lines -/

theorem Trails.alike {mark : Punct} (h : Trails mark tokens) (alike : Token.Alike g tokens tokens') :
    Trails mark tokens' := by
  cases h with
  | none =>
    rw [alike.nil]
    exact .none
  | some spelled derives =>
    obtain ⟨token, rest, rfl, kind, -, alike⟩ := alike.cons
    obtain ⟨node', derives', -⟩ := derives.alike alike
    exact .some (kind.trans spelled) derives'

theorem Parameter.alike {name : String} (h : Parameter tokens name) (alike : Token.Alike g tokens tokens') :
    Parameter tokens' name := by
  cases h with
  | named spelled notes values =>
    obtain ⟨token, rest, rfl, kind, -, alike⟩ := alike.cons
    obtain ⟨note, value, rfl, first, second⟩ := alike.append
    exact .named (kind.trans spelled) (notes.alike first) (values.alike second)

theorem SimpleStatement.alike (h : SimpleStatement tokens node) (alike : Token.Alike g tokens tokens') :
    ∃ node', SimpleStatement tokens' node' ∧ node.Resembles g node' := by
  unfold Node.Resembles
  cases h with
  | pass spelled =>
    obtain ⟨token, rfl, kind, line⟩ := alike.single
    exact ⟨_, .pass (kind.trans spelled), by rw [mapLine, mapLine, line]⟩
  | expression derives =>
    obtain ⟨node', derives', same⟩ := derives.alike alike
    exact ⟨node', .expression derives', same⟩
  | assign known spelled derives =>
    obtain ⟨target, rest, rfl, kind, line, alike⟩ := alike.cons
    obtain ⟨mark, rest, rfl, kind', -, alike⟩ := alike.cons
    obtain ⟨value, derives', same⟩ := derives.alike alike
    refine ⟨_, .assign (kind.trans known) (kind'.trans spelled) derives', ?_⟩
    rw [mapLine, mapLine, line, show mapLine g value = _ from same]
  | augment known spelled augmented derives =>
    obtain ⟨target, rest, rfl, kind, line, alike⟩ := alike.cons
    obtain ⟨mark, rest, rfl, kind', line', alike⟩ := alike.cons
    obtain ⟨value, derives', same⟩ := derives.alike alike
    refine ⟨_, .augment (kind.trans known) (kind'.trans spelled) augmented derives', ?_⟩
    simp only [mapLine, line, line', show mapLine g value = _ from same]

theorem Token.IsLineEnd.of_kind {token token' : Token} (ends : token.IsLineEnd)
    (kind : token'.kind = token.kind) : token'.IsLineEnd := by
  rwa [Token.IsLineEnd, kind]

theorem LineRest.alike (h : LineRest tokens nodes) (alike : Token.Alike g tokens tokens') :
    ∃ nodes', LineRest tokens' nodes' ∧ List.Forall₂ (Node.Resembles g) nodes nodes' := by
  induction h generalizing tokens' with
  | ended ends =>
    obtain ⟨token, rfl, kind, -⟩ := alike.single
    exact ⟨[], .ended (ends.of_kind kind), .nil⟩
  | dangling spelled ends =>
    obtain ⟨semicolon, rest, rfl, kind, -, alike⟩ := alike.cons
    obtain ⟨token, rfl, kind', -⟩ := alike.single
    exact ⟨[], .dangling (kind.trans spelled) (ends.of_kind kind'), .nil⟩
  | more spelled simple _ ih =>
    obtain ⟨semicolon, rest, rfl, kind, -, alike⟩ := alike.cons
    obtain ⟨first, rest, rfl, here, later⟩ := alike.append
    obtain ⟨node', simple', same⟩ := simple.alike here
    obtain ⟨nodes', rest', each⟩ := ih later
    exact ⟨node' :: nodes', .more (kind.trans spelled) simple' rest', .cons same each⟩

theorem SimpleLine.alike (h : SimpleLine tokens nodes) (alike : Token.Alike g tokens tokens') :
    ∃ nodes', SimpleLine tokens' nodes' ∧ List.Forall₂ (Node.Resembles g) nodes nodes' := by
  cases h with
  | simple simple rest =>
    obtain ⟨first, later, rfl, here, there⟩ := alike.append
    obtain ⟨node', simple', same⟩ := simple.alike here
    obtain ⟨nodes', rest', each⟩ := rest.alike there
    exact ⟨node' :: nodes', .simple simple' rest', .cons same each⟩

/-! ### Statements -/

theorem forall₂_single {R : Node → Node → Prop} {node : Node} {nodes : List Node}
    (h : List.Forall₂ R [node] nodes) : ∃ node', nodes = [node'] ∧ R node node' := by
  obtain ⟨node', nodes, known, none, rfl⟩ := List.forall₂_cons_left_iff.mp h
  rw [List.forall₂_nil_left_iff.mp none]
  exact ⟨node', rfl, known⟩

/-- Tokens of the same kinds form the same phrase. -/
theorem Forms.alike {phrase : Phrase} (h : Forms phrase tokens nodes)
    (alike : Token.Alike g tokens tokens') :
    ∃ nodes', Forms phrase tokens' nodes' ∧ List.Forall₂ (Node.Resembles g) nodes nodes' := by
  induction h generalizing tokens' with
  | nil =>
    rw [alike.nil]
    exact ⟨[], .nil, .nil⟩
  | cons _ _ ih ih' =>
    obtain ⟨first, rest, rfl, here, later⟩ := alike.append
    obtain ⟨nodes', formed, each⟩ := ih here
    obtain ⟨nodes'', formed', each'⟩ := ih' later
    exact ⟨nodes' ++ nodes'', .cons formed formed', List.rel_append each each'⟩
  | line line =>
    obtain ⟨nodes', line', each⟩ := line.alike alike
    exact ⟨nodes', .line line', each⟩
  | blank spelled =>
    obtain ⟨token, rfl, kind, line⟩ := alike.single
    refine ⟨_, .blank (kind.trans spelled), .cons ?_ .nil⟩
    rw [Node.Resembles, mapLine, mapLine, line]
  | conditional _ ih =>
    obtain ⟨nodes', formed, each⟩ := ih alike
    exact ⟨nodes', .conditional formed, each⟩
  | loop spelled derives _ ih =>
    obtain ⟨word, rest, rfl, kind, line, alike⟩ := alike.cons
    obtain ⟨test, suite, rfl, first, second⟩ := alike.append
    obtain ⟨condition, derives', same⟩ := derives.alike first
    obtain ⟨_, formed, each⟩ := ih second
    obtain ⟨body, rfl, same'⟩ := forall₂_single each
    refine ⟨_, .loop (kind.trans spelled) derives' formed, .cons ?_ .nil⟩
    rw [Node.Resembles, mapLine, mapLine, line, same, same']
  | @function _ _ _ _ _ _ _ _ items spelled known opened separated parameters results _ ih =>
    obtain ⟨word, rest, rfl, kind, line, alike⟩ := alike.cons
    obtain ⟨token, rest, rfl, kind', -, alike⟩ := alike.cons
    obtain ⟨opening, rest, rfl, kind'', -, alike⟩ := alike.cons
    obtain ⟨header, suite, rfl, alike, last⟩ := alike.append
    obtain ⟨params, result, rfl, first, second⟩ := alike.append
    obtain ⟨spellings, separated', each⟩ := separated.alike first
    have again : ∀ item ∈ items, ∀ tokens, Token.Alike g item.1 tokens →
        ∃ name, Parameter tokens name ∧ item.2 = name :=
      fun item member tokens alike => ⟨item.2, (parameters item member).alike alike, rfl⟩
    obtain ⟨items', rfl, parameters', names⟩ := items_alike again each
    rw [List.forall₂_eq_eq_eq] at names
    obtain ⟨_, formed, each⟩ := ih last
    obtain ⟨body, rfl, same⟩ := forall₂_single each
    refine ⟨_, .function (kind.trans spelled) (kind'.trans known) (kind''.trans opened) separated'
      parameters' (results.alike second) formed, .cons ?_ .nil⟩
    rw [Node.Resembles, mapLine, mapLine, line, same, names]
  | inline spelled line =>
    obtain ⟨colon, rest, rfl, kind, line', alike⟩ := alike.cons
    obtain ⟨nodes', formed, each⟩ := line.alike alike
    refine ⟨_, .inline (kind.trans spelled) formed, .cons ?_ .nil⟩
    rw [Node.Resembles, mapLine, mapLine, mapLines_of_resembles each, line']
  | indented spelled ended opens closes _ ih =>
    obtain ⟨colon, rest, rfl, kind, line, alike⟩ := alike.cons
    obtain ⟨newline, rest, rfl, kind', -, alike⟩ := alike.cons
    obtain ⟨indent, rest, rfl, kind'', -, alike⟩ := alike.cons
    obtain ⟨inner, last, rfl, here, there⟩ := alike.append
    obtain ⟨dedent, rfl, isDedent, -⟩ := there.single
    obtain ⟨nodes', formed, each⟩ := ih here
    refine ⟨_, .indented (kind.trans spelled) (kind'.trans ended) (kind''.trans opens)
      (isDedent.trans closes) formed, .cons ?_ .nil⟩
    rw [Node.Resembles, mapLine, mapLine, mapLines_of_resembles each, line]
  | only spelled derives _ ih =>
    obtain ⟨word, rest, rfl, kind, line, alike⟩ := alike.cons
    obtain ⟨test, suite, rfl, first, second⟩ := alike.append
    obtain ⟨condition, derives', same⟩ := derives.alike first
    obtain ⟨_, formed, each⟩ := ih second
    obtain ⟨yes, rfl, same'⟩ := forall₂_single each
    refine ⟨_, .only (kind.trans spelled) derives' formed, .cons ?_ .nil⟩
    rw [Node.Resembles, mapLine, mapLine, mapLine, mapLine, line, same, same']
  | otherwise spelled derives _ isElse _ ih ih' =>
    obtain ⟨word, rest, rfl, kind, line, alike⟩ := alike.cons
    obtain ⟨test, rest, rfl, first, alike⟩ := alike.append
    obtain ⟨suite, rest, rfl, second, alike⟩ := alike.append
    obtain ⟨other, suite', rfl, kind', -, third⟩ := alike.cons
    obtain ⟨condition, derives', same⟩ := derives.alike first
    obtain ⟨_, formed, each⟩ := ih second
    obtain ⟨yes, rfl, same'⟩ := forall₂_single each
    obtain ⟨_, formed', each⟩ := ih' third
    obtain ⟨no, rfl, same''⟩ := forall₂_single each
    refine ⟨_, .otherwise (kind.trans spelled) derives' formed (kind'.trans isElse) formed',
      .cons ?_ .nil⟩
    rw [Node.Resembles, mapLine, mapLine, line, same, same', same'']
  | chained spelled derives _ _ ih ih' =>
    obtain ⟨word, rest, rfl, kind, line, alike⟩ := alike.cons
    obtain ⟨test, rest, rfl, first, alike⟩ := alike.append
    obtain ⟨suite, more, rfl, second, third⟩ := alike.append
    obtain ⟨condition, derives', same⟩ := derives.alike first
    obtain ⟨_, formed, each⟩ := ih second
    obtain ⟨yes, rfl, same'⟩ := forall₂_single each
    obtain ⟨_, formed', each⟩ := ih' third
    obtain ⟨no, rfl, same''⟩ := forall₂_single each
    refine ⟨_, .chained (kind.trans spelled) derives' formed formed', .cons ?_ .nil⟩
    rw [Node.Resembles, mapLine, mapLine, line, same, same', same'']

end

end Offside
