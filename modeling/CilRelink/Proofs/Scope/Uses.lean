import CilRelink.Proofs.Scope.History

/-!
# What a scope answers over its uses

A scope is used in two ways: what a token of the binary means is recorded, and the token of a meaning is asked for.
Two things hold in whatever order that is done. A meaning keeps the token that it got first, because nothing is taken
back. No token has a row past those that its table has counted, because a table counts the rows that are recorded as
well as those that it hands out. So a new token is behind all others of its table, as long as the table has a row
behind them. It is the next one by the count even where there is none: then the row has lost its high bits, and the
token is that of row zero, or one that may have been used already.
-/

namespace CilRelink

namespace Token

theorem ofRow_mod (table : TokenTable) (row : Nat) : ofRow table (row % rowLimit) = ofRow table row := by
  simp only [ofRow, Nat.mod_mod]

theorem table?_ofRow_of_any (table : TokenTable) (row : Nat) : (ofRow table row).table? = some table := by
  rw [← ofRow_mod]
  exact table?_ofRow (Nat.mod_lt _ (by decide))

theorem row_ofRow_of_any (table : TokenTable) (row : Nat) : (ofRow table row).row = row % rowLimit := by
  rw [← ofRow_mod]
  exact row_ofRow (Nat.mod_lt _ (by decide))

end Token

/-- What a token can mean. Symbols and strings are kept apart, so that a token can mean one of each. -/
inductive Meaning where
  | symbol (symbol : Symbol)
  | string (string : String)
deriving DecidableEq

namespace Meaning

/-- Whether it is a string that is meant. -/
def isString : Meaning → Bool
  | .symbol _ => false
  | .string _ => true

/-- The table that a new token of the meaning goes to. -/
def homeTable : Meaning → TokenTable
  | .symbol named => named.homeTable
  | .string _ => .userString

end Meaning

/-- Whether a resolver finds the meaning under the token. A type, a field or a method has to be found where any symbol
may stand and where only one of its kind may. -/
def Resolver.LeadsTo (resolver : Resolver) (token : Token) : Meaning → Prop
  | .symbol (.type reference) =>
    resolver.symbol token = .ok (.type reference) ∧ resolver.type token = .ok reference
  | .symbol (.field reference) =>
    resolver.symbol token = .ok (.field reference) ∧ resolver.field token = .ok reference
  | .symbol (.method reference) =>
    resolver.symbol token = .ok (.method reference) ∧ resolver.method token = .ok reference
  | .string string => resolver.string token = .ok string

instance (resolver : Resolver) (token : Token) (meaning : Meaning) : Decidable (resolver.LeadsTo token meaning) :=
  match meaning with
  | .symbol (.type _) | .symbol (.field _) | .symbol (.method _) => inferInstanceAs (Decidable (_ ∧ _))
  | .string _ => inferInstanceAs (Decidable (_ = _))

namespace Scope

/-- One use of a scope. -/
inductive Use where
  | record (token : Token) (meaning : Meaning)
  | ask (meaning : Meaning)
deriving DecidableEq

/-- The meaning that the use is about. -/
def Use.meaning : Use → Meaning
  | .record _ named => named
  | .ask named => named

/-- Records what a token means. -/
def record (scope : Scope) (token : Token) : Meaning → Scope
  | .symbol symbol => scope.define token symbol
  | .string string => scope.defineString token string

/-- The token that the scope hands out for a meaning, and the scope after that. -/
def ask (scope : Scope) : Meaning → Token × Scope
  | .symbol symbol => scope.intern symbol
  | .string string => scope.internString string

/-- The token that a use is about, and the scope after the use. -/
def perform (scope : Scope) : Use → Token × Scope
  | .record token meaning => (token, scope.record token meaning)
  | .ask meaning => scope.ask meaning

/-- The scope after uses, one after the other. -/
def run (scope : Scope) (uses : List Use) : Scope := uses.foldl (fun scope use => (scope.perform use).2) scope

/-- The tokens that uses are about, those recorded and those handed out. -/
def tokens (scope : Scope) : List Use → List Token
  | [] => []
  | use :: uses => (scope.perform use).1 :: (scope.perform use).2.tokens uses

/-- The token that is handed out for the meaning again, if there is one. -/
def tokenOf? (scope : Scope) : Meaning → Option Token
  | .symbol symbol => scope.symbolTokens.find? symbol
  | .string string => scope.stringTokens.find? string

/-- Whether the scope knows the token to have this meaning. -/
def Means (scope : Scope) (token : Token) : Meaning → Prop
  | .symbol symbol => scope.symbols.find? token = some symbol
  | .string string => scope.strings.find? token = some string

/-- Whether the token means nothing yet of the kind of the meaning. -/
def IsFree (scope : Scope) (token : Token) : Meaning → Prop
  | .symbol _ => scope.symbols.find? token = none
  | .string _ => scope.strings.find? token = none

instance (scope : Scope) (token : Token) (meaning : Meaning) : Decidable (scope.IsFree token meaning) :=
  match meaning with
  | .symbol _ | .string _ => inferInstanceAs (Decidable (_ = none))

/-- Whether each token is recorded while it means nothing yet of that kind. -/
def RecordsFree (scope : Scope) : List Use → Prop
  | [] => True
  | .record token meaning :: uses => scope.IsFree token meaning ∧ (scope.record token meaning).RecordsFree uses
  | .ask meaning :: uses => (scope.ask meaning).2.RecordsFree uses

variable {scope : Scope} {token : Token} {meaning other : Meaning} {table : TokenTable} {use : Use} {uses : List Use}

theorem run_cons (scope : Scope) (use : Use) (uses : List Use) :
    scope.run (use :: uses) = (scope.perform use).2.run uses := rfl

theorem run_append (scope : Scope) (earlier later : List Use) :
    scope.run (earlier ++ later) = (scope.run earlier).run later := by
  simp [run]

theorem recordsFree_append (scope : Scope) (earlier later : List Use) :
    scope.RecordsFree (earlier ++ later) ↔ scope.RecordsFree earlier ∧ (scope.run earlier).RecordsFree later := by
  induction earlier generalizing scope with
  | nil => simp [RecordsFree, run]
  | cons use earlier ih => cases use <;> simp [RecordsFree, run_cons, perform, ih, and_assoc]

theorem leadsTo_resolver_iff : scope.resolver.LeadsTo token meaning ↔ scope.Means token meaning := by
  cases meaning with
  | string string => exact resolveString_eq_ok_iff
  | symbol symbol =>
      cases symbol <;>
        simp only [Resolver.LeadsTo, resolver, Means, resolveSymbol_eq_ok_iff, resolveType_eq_ok_iff,
          resolveField_eq_ok_iff, resolveMethod_eq_ok_iff, and_self]

theorem Means.unique (means : scope.Means token meaning) (meansOther : scope.Means token other)
    (sameKind : other.isString = meaning.isString) : other = meaning := by
  cases meaning <;> cases other <;> simp_all [Means, Meaning.isString]

/-! ## One use -/

theorem ask_of_known (known : scope.tokenOf? meaning = some token) : scope.ask meaning = (token, scope) := by
  cases meaning with
  | symbol symbol => exact intern_of_known known
  | string string => exact internString_of_known known

/-- A meaning without a token gets the one behind the rows of its table. -/
theorem ask_of_unknown (unknown : scope.tokenOf? meaning = none) :
    (scope.ask meaning).1 = Token.ofRow meaning.homeTable (scope.rows meaning.homeTable + 1) ∧
      (scope.ask meaning).2.rows meaning.homeTable = scope.rows meaning.homeTable + 1 := by
  cases meaning <;> simp only [tokenOf?] at unknown <;>
    simp [ask, intern, internString, unknown, allocate, Meaning.homeTable, rows, Dictionary.find?_insert]

theorem rows_le_perform (scope : Scope) (use : Use) (table : TokenTable) :
    scope.rows table ≤ (scope.perform use).2.rows table := by
  cases use with
  | ask meaning =>
      cases meaning with
      | symbol symbol => exact scope.rows_le_intern symbol table
      | string string => exact scope.rows_le_internString string table
  | record token meaning =>
      have covers := scope.rows_le_coverRow token table
      cases meaning <;> exact covers

/-- After a use, its meaning has a token, which is that of the use unless there was one before. -/
theorem tokenOf?_perform (scope : Scope) (use : Use) (other : Meaning) :
    (scope.perform use).2.tokenOf? other =
      if other = use.meaning then some ((scope.tokenOf? use.meaning).getD (scope.perform use).1)
      else scope.tokenOf? other := by
  cases use with
  | ask meaning =>
      cases known : scope.tokenOf? meaning with
      | some token =>
          simp only [perform, Use.meaning, ask_of_known known, known, Option.getD_some]
          split <;> simp_all
      | none =>
          cases meaning <;> simp only [tokenOf?] at known <;> cases other <;>
            simp [perform, ask, Use.meaning, tokenOf?, intern, internString, known, allocate, Dictionary.find?_insert]
  | record token meaning =>
      cases meaning <;> cases other <;>
        simp only [perform, record, Use.meaning, define, defineString, tokenOf?] <;> rw [coverRow_eq] <;>
        simp [Dictionary.find?_insertNew]

theorem tokenOf?_run (known : scope.tokenOf? meaning = some token) (uses : List Use) :
    (scope.run uses).tokenOf? meaning = some token := by
  induction uses generalizing scope with
  | nil => exact known
  | cons use uses ih =>
      apply ih
      rw [tokenOf?_perform]
      split <;> simp_all

/-- A use adds no other meaning than that of its token. -/
theorem means_of_perform (means : (scope.perform use).2.Means token other) :
    (token = (scope.perform use).1 ∧ other = use.meaning) ∨ scope.Means token other := by
  cases use with
  | ask meaning =>
      cases known : scope.tokenOf? meaning with
      | some first =>
          simp only [perform, ask_of_known known] at means
          exact .inr means
      | none =>
          cases meaning <;> simp only [tokenOf?] at known <;> cases other <;>
            simp only [perform, ask, intern, internString, known, allocate, Means, Use.meaning] at means ⊢ <;>
            simp [means] <;> exact Dictionary.eq_or_of_find?_insertNew means
  | record first meaning =>
      cases meaning <;> simp only [perform, record, define, defineString] at means <;>
        rw [coverRow_eq] at means <;> cases other <;> simp only [perform, Means, Use.meaning] at means ⊢ <;>
        simp [means] <;> exact Dictionary.eq_or_of_find?_insert means

theorem rows_le_run (scope : Scope) (uses : List Use) (table : TokenTable) :
    scope.rows table ≤ (scope.run uses).rows table := by
  induction uses generalizing scope with
  | nil => exact Nat.le_refl _
  | cons use uses ih => exact Nat.le_trans (scope.rows_le_perform use table) (ih _)

/-! ## Tokens within their tables -/

/-- Whether a table has counted the rows of all its tokens that have a meaning or are handed out again, and each
meaning of a token has one to hand out. -/
structure Counted (scope : Scope) : Prop where
  known {token : Token} {meaning : Meaning} {table : TokenTable} (means : scope.Means token meaning)
    (within : token.table? = some table) : token.row ≤ scope.rows table
  handedOut {token : Token} {meaning : Meaning} {table : TokenTable} (kept : scope.tokenOf? meaning = some token)
    (within : token.table? = some table) : token.row ≤ scope.rows table
  hasToken {token : Token} {meaning : Meaning} (means : scope.Means token meaning) :
    ∃ first, scope.tokenOf? meaning = some first

namespace Counted

theorem empty : Scope.empty.Counted where
  known {token meaning _} means := by cases meaning <;> cases means
  handedOut {token meaning _} kept := by cases meaning <;> cases kept
  hasToken {token meaning} means := by cases meaning <;> cases means

theorem row_le (counted : scope.Counted) (use : Use) (within : (scope.perform use).1.table? = some table) :
    (scope.perform use).1.row ≤ (scope.perform use).2.rows table := by
  cases use with
  | record token meaning =>
      have covers := scope.row_le_coverRow within
      cases meaning <;> exact covers
  | ask meaning =>
      simp only [perform] at within ⊢
      cases kept : scope.tokenOf? meaning with
      | some token =>
          rw [ask_of_known kept] at within ⊢
          exact counted.handedOut kept within
      | none =>
          -- the new row may have lost its high bits, which only makes it smaller than the count
          rcases ask_of_unknown kept with ⟨next, counts⟩
          rw [next, Token.table?_ofRow_of_any, Option.some.injEq] at within
          subst within
          rw [next, Token.row_ofRow_of_any, counts]
          exact Nat.mod_le _ _

theorem perform (counted : scope.Counted) (use : Use) : (scope.perform use).2.Counted where
  known {token meaning table} means within := by
    rcases means_of_perform means with ⟨rfl, _⟩ | means
    · exact counted.row_le use within
    · exact Nat.le_trans (counted.known means within) (scope.rows_le_perform use table)
  handedOut {token meaning table} kept within := by
    rw [tokenOf?_perform] at kept
    split at kept
    · cases before : scope.tokenOf? use.meaning with
      | some first =>
          rw [before, Option.getD_some, Option.some.injEq] at kept
          subst kept
          exact Nat.le_trans (counted.handedOut before within) (scope.rows_le_perform use table)
      | none =>
          rw [before, Option.getD_none, Option.some.injEq] at kept
          subst kept
          exact counted.row_le use within
    · exact Nat.le_trans (counted.handedOut kept within) (scope.rows_le_perform use table)
  hasToken {token meaning} means := by
    rw [tokenOf?_perform]
    split
    · exact ⟨_, rfl⟩
    · rename_i different
      rcases means_of_perform means with ⟨_, same⟩ | means
      · exact absurd same different
      · exact counted.hasToken means

theorem run (counted : scope.Counted) (uses : List Use) : (scope.run uses).Counted := by
  induction uses generalizing scope with
  | nil => exact counted
  | cons use uses ih => exact ih (counted.perform use)

theorem row_le_of_mem_tokens (counted : scope.Counted) (tokenMem : token ∈ scope.tokens uses)
    (within : token.table? = some table) : token.row ≤ (scope.run uses).rows table := by
  induction uses generalizing scope with
  | nil => cases tokenMem
  | cons use uses ih =>
      rcases List.mem_cons.mp tokenMem with rfl | tokenMem
      · exact Nat.le_trans (counted.row_le use within) (rows_le_run _ uses table)
      · exact ih (counted.perform use) tokenMem

end Counted

/-! ## Orderly uses -/

theorem Coherent.means (coherent : scope.Coherent) (kept : scope.tokenOf? meaning = some token) :
    scope.Means token meaning := by
  cases meaning with
  | symbol symbol => exact coherent.symbols.leadsBack kept
  | string string => exact coherent.strings.leadsBack kept

theorem Orderly.record (orderly : scope.Orderly) (free : scope.IsFree token meaning) :
    (scope.record token meaning).Orderly := by
  cases meaning with
  | symbol symbol => exact orderly.define symbol free
  | string string => exact orderly.defineString string free

theorem Orderly.ask (orderly : scope.Orderly)
    (room : (scope.ask meaning).2.rows meaning.homeTable < Token.rowLimit) : (scope.ask meaning).2.Orderly := by
  cases meaning with
  | symbol symbol => exact orderly.intern room
  | string string => exact orderly.internString room

/-- A scope stays orderly as long as no table counts more rows than tokens can tell apart. -/
theorem Orderly.run (orderly : scope.Orderly) (free : scope.RecordsFree uses)
    (room : ∀ table, (scope.run uses).rows table < Token.rowLimit) : (scope.run uses).Orderly := by
  induction uses generalizing scope with
  | nil => exact orderly
  | cons use uses ih =>
      cases use with
      | record token meaning => exact ih (orderly.record free.1) free.2 room
      | ask meaning =>
          have roomNow := Nat.lt_of_le_of_lt (rows_le_run _ uses meaning.homeTable) (room meaning.homeTable)
          exact ih (orderly.ask roomNow) free room

/-- What was true of all uses was true of those up to some point. -/
theorem orderly_of_append {earlier later : List Use} (free : empty.RecordsFree (earlier ++ later))
    (room : ∀ table, (empty.run (earlier ++ later)).rows table < Token.rowLimit) : (empty.run earlier).Orderly := by
  apply Orderly.empty.run ((recordsFree_append _ _ _).mp free).1
  intro table
  rw [run_append] at room
  exact Nat.lt_of_le_of_lt (rows_le_run _ later table) (room table)

theorem tokenOf?_run_ask (scope : Scope) (meaning : Meaning) (later : List Use) :
    (scope.run (.ask meaning :: later)).tokenOf? meaning = some (scope.ask meaning).1 := by
  rw [run_cons]
  apply tokenOf?_run
  rw [tokenOf?_perform]
  cases kept : scope.tokenOf? meaning <;> simp [Use.meaning, perform, kept, ask_of_known]

/-- Two meanings of one kind have different tokens, because each of the two tokens leads back. -/
theorem Coherent.eq_of_ask (coherent : (scope.ask other).2.Coherent) (kept : scope.tokenOf? meaning = some token)
    (sameKind : other.isString = meaning.isString) (sameToken : (scope.ask other).1 = token) : other = meaning := by
  have keptOther := scope.tokenOf?_run_ask other []
  rw [sameToken] at keptOther
  exact Means.unique (coherent.means (tokenOf?_run kept [.ask other])) (coherent.means keptOther) sameKind

/-! ## New tokens -/

/-- Where the table has a row left, a new token is behind all its tokens. -/
theorem Counted.row_lt_new (counted : scope.Counted) (unknown : (scope.run uses).tokenOf? meaning = none)
    (room : (scope.run uses).rows meaning.homeTable + 1 < Token.rowLimit) (tokenMem : token ∈ scope.tokens uses)
    (within : token.table? = some meaning.homeTable) : token.row < ((scope.run uses).ask meaning).1.row := by
  rw [(ask_of_unknown unknown).1, Token.row_ofRow room]
  exact Nat.lt_succ_of_le (counted.row_le_of_mem_tokens tokenMem within)

theorem table?_new (unknown : scope.tokenOf? meaning = none) :
    (scope.ask meaning).1.table? = some meaning.homeTable := by
  rw [(ask_of_unknown unknown).1]
  exact Token.table?_ofRow_of_any _ _

theorem Counted.isFree_new (counted : scope.Counted) (unknown : scope.tokenOf? meaning = none)
    (room : scope.rows meaning.homeTable + 1 < Token.rowLimit) : scope.IsFree (scope.ask meaning).1 meaning := by
  have unmeant : ∀ other, ¬ scope.Means (scope.ask meaning).1 other := by
    intro other means
    have atMost := counted.known means (table?_new unknown)
    rw [(ask_of_unknown unknown).1, Token.row_ofRow room] at atMost
    omega
  cases meaning with
  | symbol symbol => exact Option.eq_none_iff_forall_ne_some.mpr fun other => unmeant (.symbol other)
  | string string => exact Option.eq_none_iff_forall_ne_some.mpr fun other => unmeant (.string other)

/-- A new token leads to what it was handed out for just if it meant nothing before, for it keeps what it meant. -/
theorem Counted.means_new_iff (counted : scope.Counted) (unknown : scope.tokenOf? meaning = none) :
    (scope.ask meaning).2.Means (scope.ask meaning).1 meaning ↔ scope.IsFree (scope.ask meaning).1 meaning := by
  have unnamed : ¬ scope.Means (scope.ask meaning).1 meaning := by
    intro means
    rcases counted.hasToken means with ⟨first, kept⟩
    rw [unknown] at kept
    cases kept
  cases meaning with
  | symbol symbol =>
      simp only [tokenOf?] at unknown
      simp only [ask, intern, unknown, allocate, Means, IsFree, Dictionary.find?_insertNew, if_true] at unnamed ⊢
      cases old : scope.symbols.find? (Token.ofRow symbol.homeTable (scope.rows symbol.homeTable + 1)) <;> simp_all
  | string string =>
      simp only [tokenOf?] at unknown
      simp only [ask, internString, unknown, allocate, Means, IsFree, Dictionary.find?_insertNew, if_true] at unnamed ⊢
      cases old : scope.strings.find? (Token.ofRow .userString (scope.rows .userString + 1)) <;> simp_all

/-! ## What uses agree on -/

/-- A method of lanterns. -/
def lanternMethod (name : String) : Meaning :=
  .symbol (.method ⟨TypeRef.simple "" "Lantern", name, TypeRef.void, [], true, []⟩)

/-- Whatever a scope is used for, in any order, as long as each token is recorded while it means nothing yet of the
kind and no table counts more rows than tokens can tell apart: the token that is handed out for a meaning leads back
to it, then and after all later uses; it is handed out again for that meaning and for no other of the kind; and if
the meaning had no token before, the new one is of the table that the meaning belongs to, and its row is behind those
of all tokens of that table that were recorded or handed out before. -/
theorem orderly_uses_agree {uses before later : List Use} {meaning : Meaning}
    (asked : uses = before ++ .ask meaning :: later) (free : empty.RecordsFree uses)
    (room : ∀ table, (empty.run uses).rows table < Token.rowLimit) :
    let known := empty.run before
    let token := (known.ask meaning).1
    (∀ between rest, later = between ++ rest →
      (known.run (.ask meaning :: between)).resolver.LeadsTo token meaning) ∧
    (∀ between other rest, later = between ++ .ask other :: rest → other.isString = meaning.isString →
      (((known.run (.ask meaning :: between)).ask other).1 = token ↔ other = meaning)) ∧
    (known.tokenOf? meaning = none →
      token.table? = some meaning.homeTable ∧
        ∀ earlier ∈ empty.tokens before, earlier.table? = some meaning.homeTable → earlier.row < token.row) := by
  intro known token
  subst asked
  -- whatever was done up to a point has left an orderly scope
  have coherent : ∀ between rest, later = between ++ rest → (known.run (.ask meaning :: between)).Coherent := by
    rintro between rest rfl
    rw [← List.cons_append, ← List.append_assoc] at free room
    rw [← run_append]
    exact (orderly_of_append free room).coherent
  refine ⟨?_, ?_, ?_⟩
  · intro between rest split
    rw [leadsTo_resolver_iff]
    exact (coherent between rest split).means (known.tokenOf?_run_ask meaning between)
  · intro between other rest split sameKind
    have kept := known.tokenOf?_run_ask meaning between
    constructor
    · have both := coherent (between ++ [.ask other]) rest (by simp [split])
      rw [← List.cons_append, run_append] at both
      exact both.eq_of_ask kept sameKind
    · rintro rfl
      rw [ask_of_known kept]
  · intro unknown
    refine ⟨table?_new unknown, ?_⟩
    intro earlier earlierMem within
    apply Counted.empty.row_lt_new unknown _ earlierMem within
    rw [← (ask_of_unknown unknown).2]
    rw [run_append] at room
    exact Nat.lt_of_le_of_lt (rows_le_run _ later _) (room meaning.homeTable)

theorem orderly_uses_agree_lantern :
    empty.RecordsFree ([.record ⟨0x0A000029⟩ (lanternMethod "light"), .ask (.string "oil")] ++
        .ask (lanternMethod "douse") :: [.record ⟨0x70000005⟩ (.string "wick"), .ask (lanternMethod "light")]) ∧
      ((empty.run [.record ⟨0x0A000029⟩ (lanternMethod "light"), .ask (.string "oil")]).ask (lanternMethod "douse")).1 =
        ⟨0x0A00002A⟩ ∧
      (empty.run [.record ⟨0x0A000029⟩ (lanternMethod "light"), .ask (.string "oil"), .ask (lanternMethod "douse"),
        .record ⟨0x70000005⟩ (.string "wick"), .ask (lanternMethod "light")]).resolver.LeadsTo ⟨0x0A00002A⟩
          (lanternMethod "douse") := by
  have free : empty.RecordsFree ([.record ⟨0x0A000029⟩ (lanternMethod "light"), .ask (.string "oil")] ++
      .ask (lanternMethod "douse") :: [.record ⟨0x70000005⟩ (.string "wick"), .ask (lanternMethod "light")]) :=
    ⟨rfl, by decide +kernel, trivial⟩
  have token : ((empty.run [.record ⟨0x0A000029⟩ (lanternMethod "light"), .ask (.string "oil")]).ask
      (lanternMethod "douse")).1 = ⟨0x0A00002A⟩ := by
    decide +kernel
  refine ⟨free, token, ?_⟩
  rw [← token]
  refine (orderly_uses_agree rfl free ?_).1 _ [] (List.append_nil _).symm
  intro table
  cases table <;> decide +kernel

/-- Whatever a scope was used for, in any order and for as long as one likes: if the table that a meaning without a
token belongs to has a row behind those it has counted, then the new token has a row other than zero, it is none of
those that were recorded or handed out before, and it leads back to the meaning. In any case, its row is zero just if
the count is a multiple of the limit, and it leads back just if it meant nothing yet of the kind. -/
theorem new_token_of_any_uses {uses : List Use} {meaning : Meaning}
    (unknown : (empty.run uses).tokenOf? meaning = none) :
    let known := empty.run uses
    let token := (known.ask meaning).1
    (known.rows meaning.homeTable + 1 < Token.rowLimit →
      token.row ≠ 0 ∧ token ∉ empty.tokens uses ∧ (known.ask meaning).2.resolver.LeadsTo token meaning) ∧
    (token.row = 0 ↔ Token.rowLimit ∣ known.rows meaning.homeTable + 1) ∧
    ((known.ask meaning).2.resolver.LeadsTo token meaning ↔ known.IsFree token meaning) := by
  intro known token
  have counted : known.Counted := Counted.empty.run uses
  have next : token = Token.ofRow meaning.homeTable (known.rows meaning.homeTable + 1) := (ask_of_unknown unknown).1
  have row : token.row = (known.rows meaning.homeTable + 1) % Token.rowLimit := by
    rw [next, Token.row_ofRow_of_any]
  rw [leadsTo_resolver_iff, counted.means_new_iff unknown]
  refine ⟨?_, ?_, Iff.rfl⟩
  · intro room
    refine ⟨?_, ?_, counted.isFree_new unknown room⟩
    · rw [row, Nat.mod_eq_of_lt room]
      omega
    · intro tokenMem
      exact Nat.lt_irrefl _ (Counted.empty.row_lt_new unknown room tokenMem (table?_new unknown))
  · rw [row]
    exact Nat.dvd_iff_mod_eq_zero.symm

theorem new_token_of_any_uses_lastRow :
    (empty.run [.record ⟨0x0A000001⟩ (lanternMethod "light"), .record ⟨0x0AFFFFFE⟩ (lanternMethod "douse")]).tokenOf?
        (lanternMethod "trim") = none ∧
      ((empty.run [.record ⟨0x0A000001⟩ (lanternMethod "light"), .record ⟨0x0AFFFFFE⟩ (lanternMethod "douse")]).ask
        (lanternMethod "trim")).2.resolver.LeadsTo ⟨0x0AFFFFFF⟩ (lanternMethod "trim") := by
  have unknown : (empty.run [.record ⟨0x0A000001⟩ (lanternMethod "light"),
      .record ⟨0x0AFFFFFE⟩ (lanternMethod "douse")]).tokenOf? (lanternMethod "trim") = none := by
    decide +kernel
  have token : ((empty.run [.record ⟨0x0A000001⟩ (lanternMethod "light"),
      .record ⟨0x0AFFFFFE⟩ (lanternMethod "douse")]).ask (lanternMethod "trim")).1 = ⟨0x0AFFFFFF⟩ := by
    decide +kernel
  refine ⟨unknown, ?_⟩
  rw [← token]
  exact ((new_token_of_any_uses unknown).1 (by decide +kernel)).2.2

/-- Behind the last row of a table comes row zero, and behind that a token that may have been recorded: it is handed
out a second time, and goes on to mean what it meant. -/
theorem new_token_not_new :
    let recorded : List Use :=
      [.record ⟨0x0A000001⟩ (lanternMethod "light"), .record ⟨0x0AFFFFFF⟩ (lanternMethod "douse")]
    let full := empty.run recorded
    let wrapped := empty.run (recorded ++ [.ask (lanternMethod "trim")])
    full.tokenOf? (lanternMethod "trim") = none ∧
      (full.ask (lanternMethod "trim")).1.row = 0 ∧
      wrapped.tokenOf? (lanternMethod "fill") = none ∧
      (wrapped.ask (lanternMethod "fill")).1 = ⟨0x0A000001⟩ ∧
      (wrapped.ask (lanternMethod "fill")).2.resolver.LeadsTo ⟨0x0A000001⟩ (lanternMethod "light") ∧
      ¬ (wrapped.ask (lanternMethod "fill")).2.resolver.LeadsTo ⟨0x0A000001⟩ (lanternMethod "fill") := by
  decide +kernel

end Scope

end CilRelink
