/-
# Compiling what was read

Other trees may have a wrong shape, but a tree of the grammar can only fail to compile for a function
that is not in the library.  Of several such functions the first one is reported, where a call stands
before its arguments and a left operand before the right one.

All of this is one equation (`Shaped.declares`): to compile a tree of the grammar is to look up the
functions that it calls, one after the other, and the columns that are then read are those of the
tree.
-/
import ColumnTree.Library.Math
import ColumnTree.Proofs.Formula.Euler
import ColumnTree.Proofs.Formula.RoundTrip

namespace ColumnTree

/-! ## Looking up several functions -/

namespace Library

variable {l : Library} {name : String} {names : List String} {f : Formula.Fault}

/-- The fault for a function that is not in a library; its kind is that of undeclared variables. -/
def unknown (l : Library) (name : String) : Formula.Fault :=
  .unknownFunction name l.names (l.similar name)

theorem mem_names_iff : name ∈ l.names ↔ ∃ r, l.find? name = some r := by
  rw [← Option.isSome_iff_exists, find?, List.find?_isSome, Library.names, List.mem_map]
  simp only [beq_iff_eq]

theorem discard_resolve_eq_ok_iff : discard (l.resolve name) = .ok () ↔ name ∈ l.names := by
  rw [mem_names_iff, resolve]
  cases l.find? name with
  | some r => exact ⟨fun _ => ⟨r, rfl⟩, fun _ => rfl⟩
  | none => exact ⟨nofun, nofun⟩

theorem discard_resolve_eq_error_iff :
    discard (l.resolve name) = .error f ↔ name ∉ l.names ∧ f = l.unknown name := by
  rw [mem_names_iff, resolve]
  cases l.find? name with
  | some r => exact ⟨nofun, fun h => absurd ⟨r, rfl⟩ h.1⟩
  | none =>
      constructor
      · intro h
        exact ⟨nofun, (Except.error.inj h).symm⟩
      · rintro ⟨-, rfl⟩
        rfl

/-- Looks up some functions, up to the first one that is not in the library. -/
def resolveAll (l : Library) (names : List String) : Except Formula.Fault Unit :=
  names.forM fun n => discard (l.resolve n)

theorem resolveAll_cons :
    l.resolveAll (name :: names) = l.resolve name >>= fun _ => l.resolveAll names := by
  change (discard (l.resolve name) >>= fun _ => l.resolveAll names) = _
  cases l.resolve name <;> rfl

theorem resolveAll_append {more : List String} :
    l.resolveAll (names ++ more) = l.resolveAll names >>= fun _ => l.resolveAll more := by
  simp [resolveAll]

/-- All are found just if all are in the library. -/
theorem resolveAll_eq_ok_iff : l.resolveAll names = .ok () ↔ ∀ n ∈ names, n ∈ l.names := by
  simp only [resolveAll, forM_eq_ok_iff, discard_resolve_eq_ok_iff]

/-- The fault is that of the first function that is not in the library. -/
theorem resolveAll_eq_error_iff :
    l.resolveAll names = .error f ↔ ∃ before name after, names = before ++ name :: after ∧
      (∀ n ∈ before, n ∈ l.names) ∧ name ∉ l.names ∧ f = l.unknown name := by
  simp only [resolveAll, forM_eq_error_iff, discard_resolve_eq_ok_iff,
    discard_resolve_eq_error_iff]

end Library

namespace Formula

/-! ## What a tree calls and what it mentions -/

namespace Ast

mutual

/-- The names of the functions that are called, a call before its arguments and operands from left to
right, repetitions kept. -/
def calls : Ast → List String
  | token _ => []
  | node .call (token name :: args) => name :: callsOf args
  | node _ children => callsOf children

/-- The names of the functions that several trees call. -/
def callsOf : List Ast → List String
  | [] => []
  | a :: rest => calls a ++ callsOf rest

end

variable {tag : Tag} {a b : Ast} {children : List Ast}

theorem calls_node (h : tag ≠ .call) : (node tag children).calls = callsOf children := by
  cases tag <;> first | rfl | exact absurd rfl h

theorem calls_single (h : tag.shape = .single) : (node tag [a]).calls = a.calls := by
  rw [calls_node (Tag.ne_of_shape (.inl h) (.inl rfl))]
  exact List.append_nil _

theorem calls_pair (h : tag.shape = .pair) : (node tag [a, b]).calls = a.calls ++ b.calls := by
  rw [calls_node (Tag.ne_of_shape (.inr h) (.inl rfl))]
  exact congrArg _ (List.append_nil _)

end Ast

/-- Reading is evaluated as far as the names: what a tree calls and what it mentions. -/
theorem exists_parse_of_names (t : String) (calls columns : List String)
    (h : (parse t).toOption.map (fun a => (a.calls, a.columns)) = some (calls, columns)) :
    ∃ a, parse t = .ok a ∧ a.calls = calls ∧ a.columns = columns := by
  cases hparse : parse t with
  | error f =>
      rw [hparse] at h
      cases h
  | ok a =>
      rw [hparse] at h
      obtain ⟨hcalls, hcolumns⟩ := Prod.mk.inj (Option.some.inj h)
      exact ⟨a, rfl, hcalls, hcolumns⟩

section Declares

variable {l : Library} {tag : Tag} {a b : Ast} {args : List Ast}

/-- Compiling comes to looking up the functions, and what is read is what the tree mentions. -/
def Declares (l : Library) (a : Ast) : Prop :=
  Expr.reads <$> compile l a = (fun _ => a.columns) <$> l.resolveAll a.calls

namespace Declares

theorem single (h : tag.shape = .single) (ha : Declares l a) : Declares l (.node tag [a]) := by
  rw [Declares, Ast.calls_single h, columns_single h, ← ha, compile_single_eq h]
  simp only [bind_pure_comp, Functor.map_map, Expr.reads_single]

/-- One after the other, what is read being put together. -/
theorem append {x y : Except Fault (List String)} {calls calls' columns columns' : List String}
    (hx : x = (fun _ => columns) <$> l.resolveAll calls)
    (hy : y = (fun _ => columns') <$> l.resolveAll calls') :
    (do return (← x) ++ (← y)) =
      (fun _ => columns ++ columns') <$> l.resolveAll (calls ++ calls') := by
  rw [hx, hy, Library.resolveAll_append]
  simp only [map_bind, bind_map_left, bind_pure_comp, Functor.map_map]

theorem pair (h : tag.shape = .pair) (ha : Declares l a) (hb : Declares l b) :
    Declares l (.node tag [a, b]) := by
  rw [Declares, Ast.calls_pair h, columns_pair h, ← append ha hb, compile_pair_eq h]
  simp only [map_bind, map_pure, Expr.reads_pair, bind_map_left]

theorem all (hargs : ∀ a ∈ args, Declares l a) :
    Expr.readsAll <$> compileAll l args =
      (fun _ => Ast.columnsOf args) <$> l.resolveAll (Ast.callsOf args) := by
  induction args with
  | nil => rfl
  | cons a args ih =>
      have ha := hargs a (List.mem_cons_self ..)
      have hrest := ih fun b hb => hargs b (List.mem_cons_of_mem _ hb)
      rw [Ast.callsOf, Ast.columnsOf, ← append ha hrest]
      simp only [compileAll_cons_eq, map_bind, map_pure, Expr.readsAll_cons, bind_map_left]

theorem call {name : String} (hargs : ∀ a ∈ args, Declares l a) :
    Declares l (.node .call (.token name :: args)) := by
  have hcolumns : (Ast.node .call (.token name :: args)).columns = Ast.columnsOf args :=
    Ast.columns_node nofun
  rw [Declares, hcolumns, Ast.calls, Library.resolveAll_cons, compile_call_eq rfl, map_bind,
    map_bind, ← all hargs]
  simp only [bind_pure_comp, Functor.map_map, Expr.reads_call]

/-- A tree without calls. -/
theorem of_compile {e : Expr} (hcompile : compile l a = .ok e) (hcalls : a.calls = [])
    (hreads : e.reads = a.columns) : Declares l a := by
  rw [Declares, hcompile, hcalls, ← hreads]
  rfl

end Declares

/-- A tree of the grammar has no other faults than functions that are not in the library. -/
theorem Shaped.declares {v : Level} (h : Shaped v a) : Declares l a := by
  induction h with
  | loosen _ _ ih => exact ih
  | binary htag _ _ iha ihb => exact .pair (Tag.shape_of_levels? htag) iha ihb
  | negation _ ih | parentheses _ ih => exact .single rfl ih
  | index _ _ _ iha ihk => exact .pair rfl iha ihk
  | indexParentheses _ _ iha ihk => exact .pair rfl (.single rfl iha) ihk
  | call _ _ ih => exact .call ih
  | number hs =>
      obtain ⟨x, hx⟩ := Option.isSome_iff_exists.1 hs.reads
      exact .of_compile (hs.compile hx) rfl rfl
  | column | text | trueLiteral | falseLiteral | euler => exact .of_compile rfl rfl rfl

namespace Declares

variable {e : Expr} {f : Fault}

theorem compile_eq_error_iff (h : Declares l a) :
    compile l a = .error f ↔ l.resolveAll a.calls = .error f := by
  rw [← map_eq_error_iff (f := Expr.reads), h, map_eq_error_iff]

theorem exists_compile_iff (h : Declares l a) :
    (∃ e, compile l a = .ok e) ↔ l.resolveAll a.calls = .ok () := by
  have hunit : (∃ u, l.resolveAll a.calls = .ok u) ↔ l.resolveAll a.calls = .ok () :=
    ⟨fun ⟨_, hu⟩ => hu, fun hu => ⟨(), hu⟩⟩
  rw [← hunit, exists_eq_ok_iff, exists_eq_ok_iff]
  simp only [ne_eq, h.compile_eq_error_iff]

theorem reads_eq (h : Declares l a) (he : compile l a = .ok e) : e.reads = a.columns := by
  rw [Declares, he] at h
  obtain ⟨-, -, hreads⟩ := map_eq_ok_iff.1 h.symm
  exact hreads.symm

end Declares

/-- A formula that was read compiles just if the library has all the functions that it calls; else the
fault is that of the first one that is missing.  What it is compiled to reads the columns that it
mentions, in their order. -/
theorem compile_of_parse {t : String} (h : parse t = .ok a) :
    ((∃ e, compile l a = .ok e) ↔ ∀ name ∈ a.calls, name ∈ l.names) ∧
      (∀ f, compile l a = .error f ↔ ∃ before name after, a.calls = before ++ name :: after ∧
        (∀ n ∈ before, n ∈ l.names) ∧ name ∉ l.names ∧ f = l.unknown name) ∧
      ∀ e, compile l a = .ok e → e.reads = a.columns := by
  have hdeclares : Declares l a := (shaped_of_parse h).declares
  refine ⟨?_, fun f => ?_, fun e he => hdeclares.reads_eq he⟩
  · rw [hdeclares.exists_compile_iff, Library.resolveAll_eq_ok_iff]
  · rw [hdeclares.compile_eq_error_iff, Library.resolveAll_eq_error_iff]

/-- Two functions are missing, one inside a call; the one that stands first is reported. -/
theorem compile_of_parse_missing :
    let l := Library.ofList [Library.Math.unary "abs" "Absolute value" Float.abs]
    let a : Ast := .node .difference
      [.node .call [.token "abs", .node .call [.token "first", .leaf .column "x"]],
        .node .call [.token "second"]]
    parse "abs(first($(x))) - second()" = .ok a ∧ a.calls = ["abs", "first", "second"] ∧
      compile l a = .error (l.unknown "first") := by
  intro l a
  have hcolumn : Shaped .expression (.leaf .column "x") :=
    (Shaped.column (by decide)).mono (by decide)
  have hfirst : Shaped .expression (.node .call [.token "first", .leaf .column "x"]) := by
    refine (Shaped.call ⟨by decide, by decide, by decide⟩ ?_).mono (by decide)
    exact List.forall_mem_singleton.2 hcolumn
  have habs : Shaped .sum
      (.node .call [.token "abs", .node .call [.token "first", .leaf .column "x"]]) := by
    refine (Shaped.call ⟨by decide, by decide, by decide⟩ ?_).mono (by decide)
    exact List.forall_mem_singleton.2 hfirst
  have hsecond : Shaped .product (.node .call [.token "second"]) := by
    refine (Shaped.call ⟨by decide, by decide, by decide⟩ ?_).mono (by decide)
    exact List.forall_mem_nil _
  have ha : Shaped .expression a :=
    (Shaped.binary (l := .sum) rfl habs hsecond).mono (by decide)
  have hrender : a.render = "abs(first($(x))) - second()" := by decide
  have hparse : parse "abs(first($(x))) - second()" = .ok a := hrender ▸ parse_render ha
  have hnames : l.names = ["abs"] := rfl
  refine ⟨hparse, rfl, ((compile_of_parse hparse).2.1 _).2 ⟨["abs"], "first", ["second"], rfl, ?_⟩⟩
  rw [hnames]
  exact ⟨by decide, by decide, rfl⟩

end Declares

end Formula

end ColumnTree
