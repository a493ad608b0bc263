import CilRelink.Proofs.Scope

/-!
# Orderly scopes

A scope is as good as what was done to it. As long as no token is given a second meaning and no table runs out of
rows, a new token is behind all those that the scope knows, and so it names nothing yet. Then every token that the
scope hands out leads back, and every symbol that it knows has a token to hand out.
-/

namespace CilRelink

namespace Token

variable {table : TokenTable} {row : Nat}

theorem toNat_ofRow (small : row < rowLimit) : (ofRow table row).value.toNat = table.byte * rowLimit + row := by
  have byte : table.byte < 256 := by cases table <;> decide
  have limit : rowLimit = 2 ^ 24 := rfl
  have inRange : table.byte * rowLimit + row < 2 ^ 32 := by
    rw [limit] at small ⊢
    omega
  simp only [ofRow, Nat.mod_eq_of_lt small]
  exact UInt32.toNat_ofNat_of_lt' inRange

theorem table?_ofRow (small : row < rowLimit) : (ofRow table row).table? = some table := by
  have byte : (ofRow table row).tableByte = table.byte := by
    rw [tableByte, toNat_ofRow small, Nat.mul_comm, Nat.mul_add_div (by decide), Nat.div_eq_of_lt small, Nat.add_zero]
  rw [table?, byte]
  cases table <;> rfl

theorem row_ofRow (small : row < rowLimit) : (ofRow table row).row = row := by
  rw [Token.row, toNat_ofRow small, Nat.mul_add_mod_self_right, Nat.mod_eq_of_lt small]

end Token

namespace Scope

variable {scope : Scope} {token : Token} {symbol : Symbol} {string : String} {table : TokenTable}

/-- What comes of a scope that knows nothing if each token is given a meaning only while it has none of the kind, and
no table is given more rows than tokens can tell apart. -/
inductive Orderly : Scope → Prop where
  | empty : Orderly empty
  | define {scope : Scope} {token : Token} (symbol : Symbol) (orderly : Orderly scope)
      (fresh : scope.symbols.find? token = none) : Orderly (scope.define token symbol)
  | defineString {scope : Scope} {token : Token} (string : String) (orderly : Orderly scope)
      (fresh : scope.strings.find? token = none) : Orderly (scope.defineString token string)
  | intern {scope : Scope} {symbol : Symbol} (orderly : Orderly scope)
      (room : (scope.intern symbol).2.rows symbol.homeTable < Token.rowLimit) : Orderly (scope.intern symbol).2
  | internString {scope : Scope} {string : String} (orderly : Orderly scope)
      (room : (scope.internString string).2.rows .userString < Token.rowLimit) :
      Orderly (scope.internString string).2

/-! ## Rows -/

theorem rows_insert (scope : Scope) (table other : TokenTable) (row : Nat) :
    ({ scope with highestRow := scope.highestRow.insert table row } : Scope).rows other =
      if other = table then row else scope.rows other := by
  simp only [rows, Dictionary.find?_insert]
  split <;> rfl

theorem rows_coverRow (scope : Scope) (token : Token) (table : TokenTable) :
    (scope.coverRow token).rows table =
      if token.table? = some table then max (scope.rows table) token.row else scope.rows table := by
  unfold coverRow
  cases within : token.table? with
  | none => rfl
  | some home =>
      rw [rows_insert]
      by_cases same : table = home
      · subst same
        rw [if_pos rfl, if_pos rfl]
      · have different : some home ≠ some table := by
          intro sameTable
          exact same (Option.some.inj sameTable).symm
        rw [if_neg same, if_neg different]

theorem rows_le_coverRow (scope : Scope) (token : Token) (table : TokenTable) :
    scope.rows table ≤ (scope.coverRow token).rows table := by
  rw [rows_coverRow]
  split <;> omega

theorem row_le_coverRow (scope : Scope) {token : Token} {table : TokenTable} (within : token.table? = some table) :
    token.row ≤ (scope.coverRow token).rows table := by
  rw [rows_coverRow, if_pos within]
  omega

theorem rows_le_allocate (scope : Scope) (table other : TokenTable) :
    scope.rows other ≤ (scope.allocate table).2.rows other := by
  rw [allocate, rows_insert]
  split
  · rename_i same
    rw [same]
    omega
  · omega

theorem rows_allocate_self (scope : Scope) (table : TokenTable) :
    (scope.allocate table).2.rows table = scope.rows table + 1 := by
  rw [allocate, rows_insert, if_pos rfl]

/-! ## Tokens and names -/

/-- Whether each token that is handed out for a name leads back to it, each name that a token leads to has a token to
hand out, and the tokens are among the rows that are counted. -/
structure Paired {α : Type} [DecidableEq α] (names : Dictionary Token α) (tokens : Dictionary α Token)
    (rows : TokenTable → Nat) : Prop where
  leadsBack {token : Token} {name : α} (handedOut : tokens.find? name = some token) : names.find? token = some name
  hasToken {token : Token} {name : α} (known : names.find? token = some name) :
    ∃ first, tokens.find? name = some first
  counted {token : Token} {name : α} {table : TokenTable} (known : names.find? token = some name)
    (within : token.table? = some table) : token.row ≤ rows table

namespace Paired

variable {α : Type} [DecidableEq α] {names names' : Dictionary Token α} {tokens tokens' : Dictionary α Token}
variable {rows rows' : TokenTable → Nat}

theorem empty : Paired (.empty : Dictionary Token α) .empty rows where
  leadsBack handedOut := by simp at handedOut
  hasToken known := by simp at known
  counted known := by simp at known

theorem of_le (paired : Paired names tokens rows) (grows : ∀ table, rows table ≤ rows' table) :
    Paired names tokens rows' where
  leadsBack := paired.leadsBack
  hasToken := paired.hasToken
  counted known within := Nat.le_trans (paired.counted known within) (grows _)

/-- A token without a name can be given one, whether or not the name has a token already. -/
theorem record (paired : Paired names tokens rows) (token : Token) (name : α) (fresh : names.find? token = none)
    (named : ∀ other, names'.find? other = if other = token then some name else names.find? other)
    (handsOut : ∀ other, tokens'.find? other =
      if other = name then some ((tokens.find? name).getD token) else tokens.find? other)
    (grows : ∀ table, rows table ≤ rows' table)
    (covers : ∀ table, token.table? = some table → token.row ≤ rows' table) : Paired names' tokens' rows' where
  leadsBack {other otherName} handedOut := by
    have kept : ∀ otherName, names.find? other = some otherName → names'.find? other = some otherName := by
      intro otherName known
      rw [named, if_neg, known]
      rintro rfl
      rw [fresh] at known
      cases known
    rw [handsOut] at handedOut
    split at handedOut
    · rename_i same
      subst same
      cases old : tokens.find? otherName with
      | none =>
          rw [old] at handedOut
          cases handedOut
          rw [named, Option.getD_none, if_pos rfl]
      | some first =>
          rw [old] at handedOut
          cases handedOut
          exact kept _ (paired.leadsBack old)
    · exact kept _ (paired.leadsBack handedOut)
  hasToken {other otherName} known := by
    rw [handsOut]
    split
    · exact ⟨_, rfl⟩
    · rename_i different
      rw [named] at known
      split at known
      · cases known
        exact absurd rfl different
      · exact paired.hasToken known
  counted {other otherName table} known within := by
    rw [named] at known
    split at known
    · rename_i same
      subst same
      exact covers table within
    · exact Nat.le_trans (paired.counted known within) (grows table)

/-- What is behind all rows that are counted has no name. -/
theorem fresh (paired : Paired names tokens rows) {table : TokenTable} (room : rows table + 1 < Token.rowLimit) :
    names.find? (Token.ofRow table (rows table + 1)) = none := by
  cases known : names.find? (Token.ofRow table (rows table + 1)) with
  | none => rfl
  | some name =>
      have counted := paired.counted known (Token.table?_ofRow room)
      rw [Token.row_ofRow room] at counted
      omega

/-- A name without a token can be given the next one of a table. -/
theorem handOut (paired : Paired names tokens rows) {table : TokenTable} {name : α}
    (unknown : tokens.find? name = none) (room : rows table + 1 < Token.rowLimit)
    (grows : ∀ other, rows other ≤ rows' other) (counts : rows' table = rows table + 1) :
    Paired (names.insertNew (Token.ofRow table (rows table + 1)) name)
      (tokens.insert name (Token.ofRow table (rows table + 1))) rows' := by
  have fresh := paired.fresh room
  apply paired.record _ name fresh
  · intro other
    rw [Dictionary.find?_insertNew, fresh, Option.getD_none]
  · intro other
    rw [Dictionary.find?_insert, unknown, Option.getD_none]
  · exact grows
  · intro other within
    rw [Token.table?_ofRow room] at within
    cases within
    rw [Token.row_ofRow room]
    exact Nat.le_of_eq counts.symm

end Paired

/-- Whether tokens and names of a scope are paired, those of symbols and those of strings. -/
structure Coherent (scope : Scope) : Prop where
  symbols : Paired scope.symbols scope.symbolTokens scope.rows
  strings : Paired scope.strings scope.stringTokens scope.rows

theorem Coherent.settled (coherent : scope.Coherent) : scope.SettledIn scope where
  symbol := coherent.symbols.leadsBack
  string := coherent.strings.leadsBack

theorem coverRow_eq (scope : Scope) (token : Token) :
    scope.coverRow token = { scope with highestRow := (scope.coverRow token).highestRow } := by
  unfold coverRow
  split <;> rfl

namespace Coherent

theorem empty : Scope.empty.Coherent := ⟨.empty, .empty⟩

theorem define (coherent : scope.Coherent) (symbol : Symbol) (fresh : scope.symbols.find? token = none) :
    (scope.define token symbol).Coherent := by
  have grows := scope.rows_le_coverRow token
  unfold Scope.define
  rw [coverRow_eq]
  constructor
  · apply coherent.symbols.record token symbol fresh ?_ ?_ grows (fun _ => scope.row_le_coverRow)
    · intro other
      exact Dictionary.find?_insert _ _ _ _
    · intro other
      exact Dictionary.find?_insertNew _ _ _ _
  · exact coherent.strings.of_le grows

theorem defineString (coherent : scope.Coherent) (string : String) (fresh : scope.strings.find? token = none) :
    (scope.defineString token string).Coherent := by
  have grows := scope.rows_le_coverRow token
  unfold Scope.defineString
  rw [coverRow_eq]
  constructor
  · exact coherent.symbols.of_le grows
  · apply coherent.strings.record token string fresh ?_ ?_ grows (fun _ => scope.row_le_coverRow)
    · intro other
      exact Dictionary.find?_insert _ _ _ _
    · intro other
      exact Dictionary.find?_insertNew _ _ _ _

end Coherent

/-! ## Handing out -/

theorem intern_of_known (known : scope.symbolTokens.find? symbol = some token) :
    scope.intern symbol = (token, scope) := by
  rw [intern, known]

theorem internString_of_known (known : scope.stringTokens.find? string = some token) :
    scope.internString string = (token, scope) := by
  rw [internString, known]

theorem rows_le_intern (scope : Scope) (symbol : Symbol) (table : TokenTable) :
    scope.rows table ≤ (scope.intern symbol).2.rows table := by
  unfold intern
  split
  · exact Nat.le_refl _
  · exact scope.rows_le_allocate symbol.homeTable table

theorem rows_le_internString (scope : Scope) (string : String) (table : TokenTable) :
    scope.rows table ≤ (scope.internString string).2.rows table := by
  unfold internString
  split
  · exact Nat.le_refl _
  · exact scope.rows_le_allocate .userString table

namespace Coherent

theorem intern (coherent : scope.Coherent) (room : (scope.intern symbol).2.rows symbol.homeTable < Token.rowLimit) :
    (scope.intern symbol).2.Coherent := by
  have grows := scope.rows_le_allocate symbol.homeTable
  have counts := scope.rows_allocate_self symbol.homeTable
  unfold Scope.intern at room ⊢
  cases known : scope.symbolTokens.find? symbol with
  | some token => exact coherent
  | none =>
      rw [known] at room
      have atMost : scope.rows symbol.homeTable + 1 < Token.rowLimit := counts ▸ room
      exact ⟨coherent.symbols.handOut known atMost grows counts, coherent.strings.of_le grows⟩

theorem internString (coherent : scope.Coherent)
    (room : (scope.internString string).2.rows .userString < Token.rowLimit) :
    (scope.internString string).2.Coherent := by
  have grows := scope.rows_le_allocate .userString
  have counts := scope.rows_allocate_self .userString
  unfold Scope.internString at room ⊢
  cases known : scope.stringTokens.find? string with
  | some token => exact coherent
  | none =>
      rw [known] at room
      have atMost : scope.rows .userString + 1 < Token.rowLimit := counts ▸ room
      exact ⟨coherent.symbols.of_le grows, coherent.strings.handOut known atMost grows counts⟩

end Coherent

/-- What the scope knows is handed out again, and nothing else changes. -/
theorem Coherent.internAction_of_known (coherent : scope.Coherent) (known : scope.symbols.find? token = some symbol) :
    ∃ first, internAction symbol scope = (.ok first, scope) := by
  rcases coherent.symbols.hasToken known with ⟨first, handsOut⟩
  exact ⟨first, by rw [internAction, intern_of_known handsOut]⟩

theorem Coherent.string_of_known (coherent : scope.Coherent) (known : scope.strings.find? token = some string) :
    ∃ first, emitter.string string scope = (.ok first, scope) := by
  rcases coherent.strings.hasToken known with ⟨first, handsOut⟩
  exact ⟨first, by simp only [emitter, internString_of_known handsOut]⟩

theorem emitter_symbol (symbol : Symbol) : emitter.symbol symbol = internAction symbol := by
  cases symbol <;> rfl

/-! ## Looking up -/

theorem resolveType_eq_ok_iff {type : TypeRef} :
    scope.resolveType token = .ok type ↔ scope.symbols.find? token = some (.type type) := by
  unfold resolveType
  split <;> simp_all

theorem resolveField_eq_ok_iff {field : FieldRef} :
    scope.resolveField token = .ok field ↔ scope.symbols.find? token = some (.field field) := by
  unfold resolveField
  split <;> simp_all

theorem resolveMethod_eq_ok_iff {method : MethodRef} :
    scope.resolveMethod token = .ok method ↔ scope.symbols.find? token = some (.method method) := by
  unfold resolveMethod
  split <;> simp_all

theorem resolveString_eq_ok_iff : scope.resolveString token = .ok string ↔ scope.strings.find? token = some string := by
  unfold resolveString
  split <;> simp_all

theorem resolveSymbol_eq_ok_iff : scope.resolveSymbol token = .ok symbol ↔ scope.symbols.find? token = some symbol := by
  unfold resolveSymbol
  split <;> simp_all

/-- Whatever was done to it, an orderly scope is coherent. -/
theorem Orderly.coherent (orderly : scope.Orderly) : scope.Coherent := by
  induction orderly with
  | empty => exact .empty
  | define symbol _ fresh ih => exact ih.define symbol fresh
  | defineString string _ fresh ih => exact ih.defineString string fresh
  | intern _ room ih => exact ih.intern room
  | internString _ room ih => exact ih.internString room

end Scope

end CilRelink
