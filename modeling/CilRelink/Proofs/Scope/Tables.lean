import CilRelink.Code.Decode
import CilRelink.Proofs.Scope.Uses

/-!
# What tables tell of tokens

What a token names can be found in two ways: by the table that it points into, which tells what kind of symbol to look
for, and by what the scope has under it. Members of other types are the one kind of row that may be a method or a
field, and so two look-ups are made for them. Both ways come to the same exactly if the tables tell the truth, that
is if each token of the scope points into a table in which what it names may stand. A scope makes no token of which
that is not so; only what is recorded can break it.
-/

namespace CilRelink

/-- The tables in which a symbol may stand. -/
def Symbol.tables : Symbol → List TokenTable
  | .type _ => [.typeRef, .typeDef, .typeSpec]
  | .field _ => [.field, .memberRef]
  | .method _ => [.methodDef, .methodSpec, .memberRef]

/-- Whether a token points into a table in which a symbol may stand. -/
def Token.Admits (token : Token) (symbol : Symbol) : Prop := ∃ table ∈ symbol.tables, token.table? = some table

theorem Symbol.homeTable_mem_tables (symbol : Symbol) : symbol.homeTable ∈ symbol.tables := by
  cases symbol with
  | type reference =>
      cases reference with
      | named reference =>
          simp only [homeTable]
          split <;> simp [tables]
      | _ => simp [homeTable, tables]
  | field reference => simp [homeTable, tables]
  | method reference =>
      simp only [homeTable]
      split <;> simp [tables]

namespace Scope

variable {scope : Scope} {token : Token} {symbol : Symbol}

/-- Whether each token of the scope points into a table in which what it names may stand. -/
def KeepsTables (scope : Scope) : Prop :=
  ∀ token symbol, scope.symbols.find? token = some symbol → token.Admits symbol

/-- Under one token, both ways come to the same exactly if its table admits what it names. -/
theorem symbolByTable_eq_iff :
    scope.resolver.symbolByTable token = scope.resolver.symbol token ↔
      ∀ symbol, scope.symbols.find? token = some symbol → token.Admits symbol := by
  simp only [Resolver.symbolByTable, resolver, resolveType, resolveField, resolveMethod, resolveSymbol, Token.Admits]
  cases scope.symbols.find? token with
  | none =>
      -- whatever the table, nothing is found
      cases token.table? with
      | none => simp
      | some table => cases table <;> simp [Functor.map, Except.map]
  | some symbol =>
      cases token.table? with
      | none => cases symbol <;> simp
      | some table => cases symbol <;> cases table <;> simp [Symbol.tables, Functor.map, Except.map]

theorem judgingByTable_eq (keeps : scope.KeepsTables) : scope.resolver.judgingByTable = scope.resolver := by
  have sameSymbol : scope.resolver.symbolByTable = scope.resolver.symbol := by
    funext token
    exact symbolByTable_eq_iff.mpr (keeps token)
  rw [Resolver.judgingByTable, sameSymbol]

/-- A token that is handed out points into the table that its symbol belongs to. -/
theorem admits_of_intern (unknown : scope.symbolTokens.find? symbol = none) :
    (scope.intern symbol).1.Admits symbol := by
  have made : (scope.intern symbol).1 = Token.ofRow symbol.homeTable (scope.rows symbol.homeTable + 1) := by
    simp only [intern, unknown, allocate]
  rw [made]
  exact ⟨symbol.homeTable, symbol.homeTable_mem_tables, Token.table?_ofRow_of_any _ _⟩

/-- Asking for the token of a symbol gives no token a name that its table does not admit. -/
theorem known_or_admits_of_intern {named : Symbol}
    (found : (scope.intern symbol).2.symbols.find? token = some named) :
    scope.symbols.find? token = some named ∨ token.Admits named := by
  cases known : scope.symbolTokens.find? symbol with
  | some first =>
      rw [intern_of_known known] at found
      exact .inl found
  | none =>
      have admits := admits_of_intern known
      simp only [intern, known] at found admits
      rcases Dictionary.eq_or_of_find?_insertNew found with ⟨rfl, rfl⟩ | old
      · exact .inr admits
      · exact .inl old

/-! ## What is recorded -/

/-- Whether a use records nothing but a symbol that the table of its token admits. -/
def Use.Admitted : Use → Prop
  | .record token (.symbol symbol) => token.Admits symbol
  | _ => True

theorem symbols_coverRow (scope : Scope) (token : Token) : (scope.coverRow token).symbols = scope.symbols := by
  rw [coverRow_eq]

theorem symbols_internString (scope : Scope) (string : String) :
    (scope.internString string).2.symbols = scope.symbols := by
  unfold internString
  split <;> rfl

namespace KeepsTables

theorem empty : Scope.empty.KeepsTables := by
  intro token symbol found
  cases found

theorem intern (keeps : scope.KeepsTables) (symbol : Symbol) : (scope.intern symbol).2.KeepsTables := by
  intro token named found
  rcases known_or_admits_of_intern found with known | admits
  · exact keeps token named known
  · exact admits

theorem define (keeps : scope.KeepsTables) (admits : token.Admits symbol) :
    (scope.define token symbol).KeepsTables := by
  intro other named found
  rcases Dictionary.eq_or_of_find?_insert found with ⟨rfl, rfl⟩ | known
  · exact admits
  · rw [symbols_coverRow] at known
    exact keeps other named known

theorem perform (keeps : scope.KeepsTables) {use : Use} (admitted : use.Admitted) :
    (scope.perform use).2.KeepsTables := by
  cases use with
  | record token meaning =>
      cases meaning with
      | symbol symbol => exact keeps.define admitted
      | string string =>
          intro other named found
          refine keeps other named ?_
          rwa [← symbols_coverRow scope token]
  | ask meaning =>
      cases meaning with
      | symbol symbol => exact keeps.intern symbol
      | string string =>
          intro other named found
          refine keeps other named ?_
          rwa [← symbols_internString scope string]

theorem run (keeps : scope.KeepsTables) {uses : List Use} (admitted : ∀ use ∈ uses, use.Admitted) :
    (scope.run uses).KeepsTables := by
  induction uses generalizing scope with
  | nil => exact keeps
  | cons use uses ih =>
      rw [List.forall_mem_cons] at admitted
      rw [run_cons]
      exact ih (keeps.perform admitted.1) admitted.2

end KeepsTables

/-- In a scope whose tables tell the truth, the tables tell what tokens name. Each token leads to the same symbol, or
to the same error, by its table and by what the scope has under it, and if tables do not tell the truth some token does
not. So code is decoded to the same in both ways. A token that is handed out for a symbol is of a table that admits
it, and no other name is given with it; so the tables tell the truth for as long as what is recorded does. -/
theorem tables_tell_symbols (scope : Scope) :
    ((∀ token, scope.resolver.symbolByTable token = scope.resolver.symbol token) ↔ scope.KeepsTables) ∧
    (scope.KeepsTables → ∀ code, Code.decode scope.resolver.judgingByTable code = Code.decode scope.resolver code) ∧
    (∀ symbol token named, (scope.intern symbol).2.symbols.find? token = some named →
      scope.symbols.find? token = some named ∨ token.Admits named) ∧
    (scope.KeepsTables → ∀ uses : List Use, (∀ use ∈ uses, use.Admitted) → (scope.run uses).KeepsTables) := by
  refine ⟨?_, ?_, ?_, ?_⟩
  · exact forall_congr' fun token => symbolByTable_eq_iff
  · intro keeps code
    rw [judgingByTable_eq keeps]
  · intro symbol token named
    exact known_or_admits_of_intern
  · intro keeps uses admitted
    exact keeps.run admitted

/-- A field of gates. -/
def gateField : Symbol := .field ⟨TypeRef.simple "" "Gate", "latch", TypeRef.simple "System" "Int32"⟩

/-- Uses of a scope: a field of another type is recorded, and the token of a type is asked for. -/
def gateUses : List Use :=
  [.record ⟨0x0A000007⟩ (.symbol gateField), .ask (.symbol (.type (TypeRef.simple "" "Gate")))]

/-- Code that loads the token of the field and that of the type. -/
def gateCode : List UInt8 := [0xD0, 0x07, 0x00, 0x00, 0x0A, 0xD0, 0x01, 0x00, 0x00, 0x01, 0x2A]

theorem tables_tell_symbols_gate :
    empty.KeepsTables ∧ (∀ use ∈ gateUses, use.Admitted) ∧
      Code.decode (empty.run gateUses).resolver.judgingByTable gateCode =
        .ok (Code.placeFrom 0
          [.unplaced .ldtoken (.symbol gateField),
            .unplaced .ldtoken (.symbol (.type (TypeRef.simple "" "Gate"))),
            .unplaced .ret .none]) := by
  have keeps : empty.KeepsTables := .empty
  have admitted : ∀ use ∈ gateUses, use.Admitted := by
    rw [gateUses, List.forall_mem_cons, List.forall_mem_singleton]
    exact ⟨⟨.memberRef, by decide, by decide⟩, trivial⟩
  refine ⟨keeps, admitted, ?_⟩
  have truthful := (tables_tell_symbols empty).2.2.2 keeps gateUses admitted
  rw [(tables_tell_symbols (empty.run gateUses)).2.1 truthful]
  decide +kernel

end Scope

end CilRelink
