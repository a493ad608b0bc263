import CilRelink.Dictionary
import CilRelink.Error

/-!
# Scopes of tokens

Encoded bodies name symbols and strings by tokens. Decoding needs a resolver, which tells what a token names;
encoding needs an emitter, which finds or makes a token and so may change a state. A scope serves as both: it records
what is known in either direction and hands out rows of each table in ascending order.

The state of an emitter survives an error, because what was handed out before the error stays handed out.
-/
namespace CilRelink

/-- What tokens name. Each component answers for one kind of operand. -/
structure Resolver where
  type : Token → Except Error TypeRef
  field : Token → Except Error FieldRef
  method : Token → Except Error MethodRef
  string : Token → Except Error String
  symbol : Token → Except Error Symbol

/-- An action that may fail and may change a state, which it does even if it fails. -/
abbrev Emission (State : Type) := ExceptT Error (StateM State)

/-- A step that may fail and leaves the state alone. -/
def Emission.ofExcept (result : Except Error α) : Emission State α := fun state => (result, state)

/-- Which tokens name types, members and strings. -/
structure Emitter (State : Type) where
  type : TypeRef → Emission State Token
  field : FieldRef → Emission State Token
  method : MethodRef → Emission State Token
  string : String → Emission State Token

/-- The token of a symbol is that of its type, field or method. -/
def Emitter.symbol (emitter : Emitter State) : Symbol → Emission State Token
  | .type reference => emitter.type reference
  | .field reference => emitter.field reference
  | .method reference => emitter.method reference

/-- What a token names, judged by its table. Members of other types may be methods or fields and are tried as methods
first. -/
def Resolver.symbolByTable (resolver : Resolver) (token : Token) : Except Error Symbol :=
  match token.table? with
  | some .field => Symbol.field <$> resolver.field token
  | some .methodDef | some .methodSpec => Symbol.method <$> resolver.method token
  | some .memberRef =>
    match resolver.method token with
    | .ok method => .ok (.method method)
    | .error _ => Symbol.field <$> resolver.field token
  | some .typeRef | some .typeDef | some .typeSpec => Symbol.type <$> resolver.type token
  | _ => .error (.unresolvedToken token)

/-- The resolver that judges by their tables what tokens name where any kind of symbol may stand. -/
def Resolver.judgingByTable (resolver : Resolver) : Resolver := { resolver with symbol := resolver.symbolByTable }

/-- The table that a new token of a symbol goes to: named types without arguments, other types, members, and
instances of generic methods are kept apart. -/
def Symbol.homeTable : Symbol → TokenTable
  | .type (.named reference) => if reference.arguments.isEmpty then .typeRef else .typeSpec
  | .type _ => .typeSpec
  | .field _ => .memberRef
  | .method reference => if reference.genericArguments.isEmpty then .memberRef else .methodSpec

/-- Tokens with what they name, the tokens to use for symbols and strings, and the highest row of each table so
far. -/
structure Scope where
  symbols : Dictionary Token Symbol
  strings : Dictionary Token String
  symbolTokens : Dictionary Symbol Token
  stringTokens : Dictionary String Token
  highestRow : Dictionary TokenTable Nat
deriving DecidableEq

namespace Scope

/-- The scope that knows nothing. -/
def empty : Scope := ⟨.empty, .empty, .empty, .empty, .empty⟩

/-- The highest row of a table so far. -/
def rows (scope : Scope) (table : TokenTable) : Nat := (scope.highestRow.find? table).getD 0

/-- Takes note of a token's row. -/
def coverRow (scope : Scope) (token : Token) : Scope :=
  match token.table? with
  | none => scope
  | some table => { scope with highestRow := scope.highestRow.insert table (max (scope.rows table) token.row) }

/-- Records what a token of the binary names. A symbol that has a token keeps it. -/
def define (scope : Scope) (token : Token) (symbol : Symbol) : Scope :=
  let covered := scope.coverRow token
  { covered with
    symbolTokens := covered.symbolTokens.insertNew symbol token
    symbols := covered.symbols.insert token symbol }

/-- Records which string a token of the binary names. A string that has a token keeps it. -/
def defineString (scope : Scope) (token : Token) (string : String) : Scope :=
  let covered := scope.coverRow token
  { covered with
    stringTokens := covered.stringTokens.insertNew string token
    strings := covered.strings.insert token string }

/-- The scope of a binary: the symbols and the strings that its tokens name, recorded in order. -/
def ofLists (symbols : List (Token × Symbol)) (strings : List (Token × String)) : Scope :=
  let named := symbols.foldl (fun scope (token, symbol) => scope.define token symbol) empty
  strings.foldl (fun scope (token, string) => scope.defineString token string) named

/-- Hands out the row after the highest of a table. -/
def allocate (scope : Scope) (table : TokenTable) : Token × Scope :=
  let row := scope.rows table + 1
  (Token.ofRow table row, { scope with highestRow := scope.highestRow.insert table row })

/-- The token of a symbol, a new one if it has none. -/
def intern (scope : Scope) (symbol : Symbol) : Token × Scope :=
  match scope.symbolTokens.find? symbol with
  | some token => (token, scope)
  | none =>
    let (token, allocated) := scope.allocate symbol.homeTable
    (token,
      { allocated with
        symbolTokens := allocated.symbolTokens.insert symbol token
        symbols := allocated.symbols.insertNew token symbol })

/-- The token of a string, a new one if it has none. -/
def internString (scope : Scope) (string : String) : Token × Scope :=
  match scope.stringTokens.find? string with
  | some token => (token, scope)
  | none =>
    let (token, allocated) := scope.allocate .userString
    (token,
      { allocated with
        stringTokens := allocated.stringTokens.insert string token
        strings := allocated.strings.insertNew token string })

/-- The number of tokens with something to name. -/
def size (scope : Scope) : Nat := scope.symbols.size + scope.strings.size

/-- The type that a token names. -/
def resolveType (scope : Scope) (token : Token) : Except Error TypeRef :=
  match scope.symbols.find? token with
  | some (.type type) => .ok type
  | _ => .error (.unresolvedToken token)

/-- The field that a token names. -/
def resolveField (scope : Scope) (token : Token) : Except Error FieldRef :=
  match scope.symbols.find? token with
  | some (.field field) => .ok field
  | _ => .error (.unresolvedToken token)

/-- The method that a token names. -/
def resolveMethod (scope : Scope) (token : Token) : Except Error MethodRef :=
  match scope.symbols.find? token with
  | some (.method method) => .ok method
  | _ => .error (.unresolvedToken token)

/-- The string that a token names. -/
def resolveString (scope : Scope) (token : Token) : Except Error String :=
  match scope.strings.find? token with
  | some string => .ok string
  | none => .error (.unresolvedToken token)

/-- The symbol that a token names. -/
def resolveSymbol (scope : Scope) (token : Token) : Except Error Symbol :=
  match scope.symbols.find? token with
  | some symbol => .ok symbol
  | none => .error (.unresolvedToken token)

/-- The scope as a resolver. -/
def resolver (scope : Scope) : Resolver :=
  ⟨scope.resolveType, scope.resolveField, scope.resolveMethod, scope.resolveString, scope.resolveSymbol⟩

/-- Interning as an action. -/
def internAction (symbol : Symbol) : Emission Scope Token := fun scope =>
  let (token, grown) := scope.intern symbol
  (.ok token, grown)

/-- Scopes as states of an emitter that interns. -/
def emitter : Emitter Scope where
  type reference := internAction (.type reference)
  field reference := internAction (.field reference)
  method reference := internAction (.method reference)
  string text := fun scope =>
    let (token, grown) := scope.internString text
    (.ok token, grown)

end Scope

end CilRelink
