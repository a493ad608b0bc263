import CilRelink.Proofs.Dictionary
import CilRelink.Proofs.Fallible

/-!
# Tokens that lead back

What is encoded can be decoded only if the resolver finds under each token what the emitter handed the token out for.
A resolver knows tokens at one moment, while the emitter goes on and changes its state. So the tokens that count are
those that the resolver knows: a state is settled if all tokens that it would hand out again are among them. Nothing
is taken back, so that every state on the way to a settled one is settled too. To a resolver that knows every token
from the start, all states are settled.
-/

namespace CilRelink

/-- Whether the resolver finds under each token what the emitter handed the token out for on the way to a settled
state. -/
structure Resolver.Undoes {State : Type} (resolver : Resolver) (emitter : Emitter State) (settled : State → Prop) :
    Prop where
  type {reference : TypeRef} {token : Token} {before after : State}
    (emitted : emitter.type reference before = (.ok token, after)) (settles : settled after) :
    resolver.type token = .ok reference ∧ settled before
  field {reference : FieldRef} {token : Token} {before after : State}
    (emitted : emitter.field reference before = (.ok token, after)) (settles : settled after) :
    resolver.field token = .ok reference ∧ settled before
  method {reference : MethodRef} {token : Token} {before after : State}
    (emitted : emitter.method reference before = (.ok token, after)) (settles : settled after) :
    resolver.method token = .ok reference ∧ settled before
  string {value : String} {token : Token} {before after : State}
    (emitted : emitter.string value before = (.ok token, after)) (settles : settled after) :
    resolver.string token = .ok value ∧ settled before
  symbol {reference : Symbol} {token : Token} {before after : State}
    (emitted : emitter.symbol reference before = (.ok token, after)) (settles : settled after) :
    resolver.symbol token = .ok reference ∧ settled before

namespace Scope

/-- Whether a later scope knows what each token stands for that this one hands out again. -/
structure SettledIn (later scope : Scope) : Prop where
  symbol {symbol : Symbol} {token : Token} (known : scope.symbolTokens.find? symbol = some token) :
    later.symbols.find? token = some symbol
  string {string : String} {token : Token} (known : scope.stringTokens.find? string = some token) :
    later.strings.find? token = some string

variable {later before after : Scope}

theorem SettledIn.of_entries {scope : Scope}
    (symbols : ∀ entry ∈ scope.symbolTokens.entries, later.symbols.find? entry.2 = some entry.1)
    (strings : ∀ entry ∈ scope.stringTokens.entries, later.strings.find? entry.2 = some entry.1) :
    later.SettledIn scope where
  symbol known := symbols _ (Dictionary.mem_of_find?_eq_some known)
  string known := strings _ (Dictionary.mem_of_find?_eq_some known)

theorem SettledIn.of_internAction {symbol : Symbol} {token : Token}
    (emitted : internAction symbol before = (.ok token, after)) (settles : later.SettledIn after) :
    later.symbols.find? token = some symbol ∧ later.SettledIn before := by
  unfold internAction intern at emitted
  cases found : before.symbolTokens.find? symbol with
  | some old =>
      rw [found] at emitted
      cases emitted
      exact ⟨settles.symbol found, settles⟩
  | none =>
      rw [found] at emitted
      cases emitted
      refine ⟨settles.symbol Dictionary.find?_insert_self, ?_, settles.string⟩
      intro other otherToken known
      exact settles.symbol (Dictionary.find?_insert_of_find?_eq_none found known)

theorem SettledIn.of_internString {string : String} {token : Token}
    (emitted : emitter.string string before = (.ok token, after)) (settles : later.SettledIn after) :
    later.strings.find? token = some string ∧ later.SettledIn before := by
  unfold emitter internString at emitted
  cases found : before.stringTokens.find? string with
  | some old =>
      simp only [found] at emitted
      cases emitted
      exact ⟨settles.string found, settles⟩
  | none =>
      simp only [found] at emitted
      cases emitted
      refine ⟨settles.string Dictionary.find?_insert_self, settles.symbol, ?_⟩
      intro other otherToken known
      exact settles.string (Dictionary.find?_insert_of_find?_eq_none found known)

/-- A scope undoes what it interns, as long as a later scope settles it. -/
theorem resolver_undoes_emitter (later : Scope) : later.resolver.Undoes emitter later.SettledIn where
  type emitted settles := by
    rcases SettledIn.of_internAction emitted settles with ⟨found, settled⟩
    exact ⟨by simp only [resolver, resolveType, found], settled⟩
  field emitted settles := by
    rcases SettledIn.of_internAction emitted settles with ⟨found, settled⟩
    exact ⟨by simp only [resolver, resolveField, found], settled⟩
  method emitted settles := by
    rcases SettledIn.of_internAction emitted settles with ⟨found, settled⟩
    exact ⟨by simp only [resolver, resolveMethod, found], settled⟩
  string emitted settles := by
    rcases SettledIn.of_internString emitted settles with ⟨found, settled⟩
    exact ⟨by simp only [resolver, resolveString, found], settled⟩
  symbol {reference} token before after emitted settles := by
    cases reference with
    | type reference =>
        rcases SettledIn.of_internAction emitted settles with ⟨found, settled⟩
        exact ⟨by simp only [resolver, resolveSymbol, found], settled⟩
    | field reference =>
        rcases SettledIn.of_internAction emitted settles with ⟨found, settled⟩
        exact ⟨by simp only [resolver, resolveSymbol, found], settled⟩
    | method reference =>
        rcases SettledIn.of_internAction emitted settles with ⟨found, settled⟩
        exact ⟨by simp only [resolver, resolveSymbol, found], settled⟩

end Scope

end CilRelink
