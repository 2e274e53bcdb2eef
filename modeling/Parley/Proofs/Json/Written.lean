import Parley.Json.Decode
import Parley.Proofs.Json.Lexeme

/-!
# Written values

Every value is read back from its text as its tree, and a tree says everything of
the value but how its numbers are kept. Blanks between the tokens change nothing.
-/

namespace Parley
namespace Json

namespace Value

@[elab_as_elim]
theorem induction {P : Value → Prop} (null : P .null) (bool : ∀ b, P (.bool b))
    (number : ∀ n, P (.number n)) (string : ∀ s, P (.string s))
    (array : ∀ items, (∀ v ∈ items, P v) → P (.array items))
    (object : ∀ ms, (∀ m ∈ ms, P m.2) → P (.object ms)) (v : Value) : P v := by
  apply @Value.rec P (fun items => ∀ v ∈ items, P v) (fun ms => ∀ m ∈ ms, P m.2)
    (fun m => P m.2) null bool number string array object
  · intro v hv
    cases hv
  · intro v items hv hitems w hw
    rcases List.mem_cons.mp hw with rfl | hw
    · exact hv
    · exact hitems w hw
  · intro m hm
    cases hm
  · intro m ms hm hms n hn
    rcases List.mem_cons.mp hn with rfl | hn
    · exact hm
    · exact hms n hn
  · intro name v hv
    exact hv

/-!
# The tokens and the tree of a value
-/

def lexemes : Value → List Lexeme
  | .null => [.null]
  | .bool b => [.bool b]
  | .number n => [.number n]
  | .string s => [.string s]
  | .array items => .beginArray :: (itemLexemes items ++ [.endArray])
  | .object ms => .beginObject :: (memberLexemes ms ++ [.endObject])
where
  itemLexemes : List Value → List Lexeme
    | [] => []
    | [v] => lexemes v
    | v :: vs => lexemes v ++ .comma :: itemLexemes vs
  memberLexemes : List (String × Value) → List Lexeme
    | [] => []
    | [(n, v)] => .string n :: .colon :: lexemes v
    | (n, v) :: ms => .string n :: .colon :: (lexemes v ++ .comma :: memberLexemes ms)

/-- What a reader sees of a value. -/
def tree : Value → Tree
  | .null => .null
  | .bool b => .bool b
  | .number n =>
    match n.literal? with
    | some l => .number l
    | none => .null
  | .string s => .string (some s)
  | .array items => .array (itemTrees items) .closed
  | .object ms => .object (memberTrees ms) .closed
where
  itemTrees : List Value → List Tree
    | [] => []
    | v :: vs => tree v :: itemTrees vs
  memberTrees : List (String × Value) → List (Option String × Tree)
    | [] => []
    | (n, v) :: ms => (some n, tree v) :: memberTrees ms

theorem itemTrees_eq (items : List Value) : tree.itemTrees items = items.map tree := by
  induction items with
  | nil => rfl
  | cons v items ih => rw [tree.itemTrees, ih, List.map_cons]

/-!
# The text
-/

theorem write_items {items : List Value}
    (h : ∀ v ∈ items, Write.value v = v.lexemes.flatMap Lexeme.text) :
    Write.value.values items = (lexemes.itemLexemes items).flatMap Lexeme.text := by
  induction items with
  | nil => rfl
  | cons v items ih =>
      have hv := h v (by simp)
      have hitems := ih fun w hw => h w (List.mem_cons_of_mem v hw)
      cases items with
      | nil => exact hv
      | cons w items =>
          show Write.value v ++ ',' :: Write.value.values (w :: items) =
            (v.lexemes ++ .comma :: lexemes.itemLexemes (w :: items)).flatMap Lexeme.text
          rw [hv, hitems]
          simp [Lexeme.text]

theorem write_members {ms : List (String × Value)}
    (h : ∀ m ∈ ms, Write.value m.2 = m.2.lexemes.flatMap Lexeme.text) :
    Write.value.members ms = (lexemes.memberLexemes ms).flatMap Lexeme.text := by
  induction ms with
  | nil => rfl
  | cons m ms ih =>
      obtain ⟨name, v⟩ := m
      have hv : Write.value v = v.lexemes.flatMap Lexeme.text := h (name, v) (by simp)
      have hms := ih fun n hn => h n (List.mem_cons_of_mem _ hn)
      cases ms with
      | nil =>
          show Write.string name ++ ':' :: Write.value v =
            (.string name :: .colon :: v.lexemes).flatMap Lexeme.text
          rw [hv]
          simp [Lexeme.text]
      | cons m ms =>
          show Write.string name ++ ':' :: (Write.value v ++ ',' :: Write.value.members (m :: ms)) =
            (.string name :: .colon ::
              (v.lexemes ++ .comma :: lexemes.memberLexemes (m :: ms))).flatMap Lexeme.text
          rw [hv, hms]
          simp [Lexeme.text]

theorem write_eq_flatMap (v : Value) : Write.value v = v.lexemes.flatMap Lexeme.text := by
  induction v using Value.induction with
  | null => rfl
  | bool b => cases b <;> rfl
  | number n => exact (List.append_nil _).symm
  | string s => exact (List.append_nil _).symm
  | array items ih =>
      show '[' :: (Write.value.values items ++ [']']) =
        (.beginArray :: (lexemes.itemLexemes items ++ [.endArray])).flatMap Lexeme.text
      rw [write_items ih]
      simp [Lexeme.text]
  | object ms ih =>
      show '\x7b' :: (Write.value.members ms ++ ['\x7d']) =
        (.beginObject :: (lexemes.memberLexemes ms ++ [.endObject])).flatMap Lexeme.text
      rw [write_members ih]
      simp [Lexeme.text]

theorem isLaidOut_flatMap (ls : List Lexeme) : IsLaidOut ls (ls.flatMap Lexeme.text) := by
  induction ls with
  | nil => exact IsLaidOut.nil (by simp)
  | cons l ls ih =>
      have hblanks : ∀ c ∈ ([] : List Char), Token.isSpace c = true := by
        intro c hc
        cases hc
      exact IsLaidOut.cons l hblanks ih

/-!
# Neighbours
-/

theorem isParted_append {ls ms : List Lexeme} {m : Lexeme} (hls : IsParted ls)
    (hms : IsParted (m :: ms)) (hm : m.isMark = true) : IsParted (ls ++ m :: ms) := by
  refine List.isChain_append.mpr ⟨hls, hms, ?_⟩
  intro l _ n hn
  cases hn
  exact Or.inr hm

theorem isParted_mark {ls : List Lexeme} {m : Lexeme} (hm : m.isMark = true)
    (hls : IsParted ls) : IsParted (m :: ls) := by
  cases ls with
  | nil => exact List.isChain_singleton m
  | cons l ls => exact List.isChain_cons_cons.mpr ⟨Or.inl hm, hls⟩

theorem isParted_items {items : List Value} (h : ∀ v ∈ items, IsParted v.lexemes) :
    IsParted (lexemes.itemLexemes items) := by
  induction items with
  | nil => exact List.isChain_nil
  | cons v items ih =>
      have hv := h v (by simp)
      have hitems := ih fun w hw => h w (List.mem_cons_of_mem v hw)
      cases items with
      | nil => exact hv
      | cons w items => exact isParted_append hv (isParted_mark rfl hitems) rfl

theorem isParted_members {ms : List (String × Value)} (h : ∀ m ∈ ms, IsParted m.2.lexemes) :
    IsParted (lexemes.memberLexemes ms) := by
  induction ms with
  | nil => exact List.isChain_nil
  | cons m ms ih =>
      obtain ⟨name, v⟩ := m
      have hv : IsParted v.lexemes := h (name, v) (by simp)
      have hms := ih fun n hn => h n (List.mem_cons_of_mem _ hn)
      have hname : ∀ ls, IsParted ls → IsParted (.string name :: .colon :: ls) := by
        intro ls hls
        exact List.isChain_cons_cons.mpr ⟨Or.inr rfl, isParted_mark rfl hls⟩
      cases ms with
      | nil => exact hname _ hv
      | cons m ms => exact hname _ (isParted_append hv (isParted_mark rfl hms) rfl)

theorem isParted_lexemes (v : Value) : IsParted v.lexemes := by
  induction v using Value.induction with
  | null => exact List.isChain_singleton _
  | bool b => exact List.isChain_singleton _
  | number n => exact List.isChain_singleton _
  | string s => exact List.isChain_singleton _
  | array items ih =>
      have hitems := isParted_items ih
      exact isParted_mark rfl (isParted_append hitems (List.isChain_singleton _) rfl)
  | object ms ih =>
      have hms := isParted_members ih
      exact isParted_mark rfl (isParted_append hms (List.isChain_singleton _) rfl)

end Value

/-!
# Building the tree
-/

namespace Tree

def carry (stack : List Frame) (t : Tree) (rest : List Token) : Tree × List Token :=
  match resume stack t with
  | none => (t, rest)
  | some (stack, place) => build stack place rest

theorem build_go {stack after : List Frame} {place next : Place} {t : Token}
    (h : move stack place t = .go after next) (rest : List Token) :
    build stack place (t :: rest) = build after next rest := by
  rw [build, h]

theorem build_finish {stack after : List Frame} {place : Place} {t : Token} {v : Tree}
    (h : move stack place t = .finish after v) (rest : List Token) :
    build stack place (t :: rest) = carry after v rest := by
  rw [build, h]
  rfl

end Tree

namespace Value

open Parley.Json.Tree

/-- The value's tokens are built into its tree, wherever it stands. -/
def IsBuilt (v : Value) : Prop :=
  ∀ stack rest, build stack .value (v.lexemes.map Lexeme.token ++ rest) = carry stack v.tree rest

theorem build_items {items : List Value} (h : ∀ v ∈ items, v.IsBuilt) (hne : items ≠ [])
    (stack : List Frame) (before : List Tree) (rest : List Token) :
    build (.array before :: stack) .value
        ((lexemes.itemLexemes items).map Lexeme.token ++ .endArray :: rest) =
      carry stack (.array (before.reverse ++ tree.itemTrees items) .closed) rest := by
  induction items generalizing before with
  | nil => exact absurd rfl hne
  | cons v items ih =>
      have hv := h v (by simp)
      have hitems := ih fun w hw => h w (List.mem_cons_of_mem v hw)
      cases items with
      | nil =>
          calc build (.array before :: stack) .value
                  (v.lexemes.map Lexeme.token ++ .endArray :: rest)
            _ = build stack (.afterItem (v.tree :: before)) (.endArray :: rest) := hv _ _
            _ = carry stack (.array (v.tree :: before).reverse .closed) rest :=
                build_finish rfl rest
            _ = _ := by rw [List.reverse_cons]; rfl
      | cons w items =>
          have htokens : (lexemes.itemLexemes (v :: w :: items)).map Lexeme.token =
              v.lexemes.map Lexeme.token ++
                .comma :: (lexemes.itemLexemes (w :: items)).map Lexeme.token :=
            List.map_append
          rw [htokens, List.append_assoc, List.cons_append]
          calc build (.array before :: stack) .value (v.lexemes.map Lexeme.token ++ .comma ::
                  ((lexemes.itemLexemes (w :: items)).map Lexeme.token ++ .endArray :: rest))
            _ = build stack (.afterItem (v.tree :: before)) (.comma ::
                  ((lexemes.itemLexemes (w :: items)).map Lexeme.token ++ .endArray :: rest)) :=
                hv _ _
            _ = build (.array (v.tree :: before) :: stack) .value
                  ((lexemes.itemLexemes (w :: items)).map Lexeme.token ++ .endArray :: rest) :=
                build_go rfl _
            _ = carry stack (.array ((v.tree :: before).reverse ++
                  tree.itemTrees (w :: items)) .closed) rest :=
                hitems (List.cons_ne_nil w items) _
            _ = _ := by rw [List.reverse_cons, List.append_assoc]; rfl

theorem build_members {ms : List (String × Value)} (h : ∀ m ∈ ms, m.2.IsBuilt) (hne : ms ≠ [])
    (stack : List Frame) (before : List Member) (rest : List Token) :
    build stack (.nextMember before)
        ((lexemes.memberLexemes ms).map Lexeme.token ++ .endObject :: rest) =
      carry stack (.object (before.reverse ++ tree.memberTrees ms) .closed) rest := by
  induction ms generalizing before with
  | nil => exact absurd rfl hne
  | cons m ms ih =>
      obtain ⟨name, v⟩ := m
      have hv : v.IsBuilt := h (name, v) (by simp)
      have hms := ih fun n hn => h n (List.mem_cons_of_mem _ hn)
      have hname : ∀ more, build stack (.nextMember before)
          (.string (some name) :: .colon :: (v.lexemes.map Lexeme.token ++ more)) =
          build stack (.afterMember ((some name, v.tree) :: before)) more := by
        intro more
        rw [build_go (t := .string (some name)) rfl, build_go (t := .colon) rfl]
        exact hv _ _
      cases ms with
      | nil =>
          calc build stack (.nextMember before) (.string (some name) :: .colon ::
                  (v.lexemes.map Lexeme.token ++ .endObject :: rest))
            _ = build stack (.afterMember ((some name, v.tree) :: before))
                  (.endObject :: rest) := hname _
            _ = carry stack (.object ((some name, v.tree) :: before).reverse .closed) rest :=
                build_finish rfl rest
            _ = _ := by rw [List.reverse_cons]; rfl
      | cons m ms =>
          have htokens : (lexemes.memberLexemes ((name, v) :: m :: ms)).map Lexeme.token =
              .string (some name) :: .colon :: (v.lexemes.map Lexeme.token ++
                .comma :: (lexemes.memberLexemes (m :: ms)).map Lexeme.token) := by
            simp [lexemes.memberLexemes, Lexeme.token]
          rw [htokens]
          simp only [List.cons_append, List.append_assoc]
          calc build stack (.nextMember before) (.string (some name) :: .colon ::
                  (v.lexemes.map Lexeme.token ++ .comma ::
                    ((lexemes.memberLexemes (m :: ms)).map Lexeme.token ++ .endObject :: rest)))
            _ = build stack (.afterMember ((some name, v.tree) :: before)) (.comma ::
                  ((lexemes.memberLexemes (m :: ms)).map Lexeme.token ++ .endObject :: rest)) :=
                hname _
            _ = build stack (.nextMember ((some name, v.tree) :: before))
                  ((lexemes.memberLexemes (m :: ms)).map Lexeme.token ++ .endObject :: rest) :=
                build_go rfl _
            _ = carry stack (.object (((some name, v.tree) :: before).reverse ++
                  tree.memberTrees (m :: ms)) .closed) rest :=
                hms (List.cons_ne_nil m ms) _
            _ = _ := by rw [List.reverse_cons, List.append_assoc]; rfl

theorem exists_lexemes_eq_cons (v : Value) :
    ∃ l ls, v.lexemes = l :: ls ∧ l.token ≠ .endArray := by
  cases v with
  | null => exact ⟨_, _, rfl, by simp [Lexeme.token]⟩
  | bool b => exact ⟨_, _, rfl, by simp [Lexeme.token]⟩
  | number n =>
      refine ⟨.number n, [], rfl, ?_⟩
      cases hn : n.literal? <;> simp [Lexeme.token, hn]
  | string s => exact ⟨_, _, rfl, by simp [Lexeme.token]⟩
  | array items => exact ⟨_, _, rfl, by simp [Lexeme.token]⟩
  | object ms => exact ⟨_, _, rfl, by simp [Lexeme.token]⟩

theorem build_firstItem (v : Value) (items : List Value) (stack : List Frame)
    (rest : List Token) :
    build stack .firstItem
        ((lexemes.itemLexemes (v :: items)).map Lexeme.token ++ rest) =
      build (.array [] :: stack) .value
        ((lexemes.itemLexemes (v :: items)).map Lexeme.token ++ rest) := by
  obtain ⟨l, ls, hv, hl⟩ := exists_lexemes_eq_cons v
  obtain ⟨more, hitems⟩ : ∃ more, lexemes.itemLexemes (v :: items) = l :: more := by
    cases items with
    | nil => exact ⟨ls, hv⟩
    | cons w items =>
        refine ⟨ls ++ .comma :: lexemes.itemLexemes (w :: items), ?_⟩
        show v.lexemes ++ _ = _
        rw [hv]
        rfl
  have hmove : move stack .firstItem l.token = move (.array [] :: stack) .value l.token :=
    if_neg hl
  rw [hitems, List.map_cons, List.cons_append, build, build, hmove]

theorem build_firstMember (m : String × Value) (ms : List (String × Value))
    (stack : List Frame) (rest : List Token) :
    build stack .firstMember
        ((lexemes.memberLexemes (m :: ms)).map Lexeme.token ++ rest) =
      build stack (.nextMember [])
        ((lexemes.memberLexemes (m :: ms)).map Lexeme.token ++ rest) := by
  obtain ⟨more, hms⟩ : ∃ more, lexemes.memberLexemes (m :: ms) = .string m.1 :: more := by
    cases ms <;> exact ⟨_, rfl⟩
  rw [hms]
  rfl

theorem isBuilt (v : Value) : v.IsBuilt := by
  induction v using Value.induction with
  | null => exact fun stack rest => build_finish rfl rest
  | bool b => exact fun stack rest => build_finish rfl rest
  | number n =>
      intro stack rest
      cases hn : n.literal? with
      | none =>
          simp only [lexemes, tree, Lexeme.token, List.map_cons, List.map_nil, hn]
          exact build_finish rfl rest
      | some l =>
          simp only [lexemes, tree, Lexeme.token, List.map_cons, List.map_nil, hn]
          exact build_finish rfl rest
  | string s => exact fun stack rest => build_finish rfl rest
  | array items ih =>
      intro stack rest
      have htokens : (Value.array items).lexemes.map Lexeme.token ++ rest = .beginArray ::
          ((lexemes.itemLexemes items).map Lexeme.token ++ .endArray :: rest) := by
        simp [lexemes, Lexeme.token]
      rw [htokens, build_go rfl]
      cases items with
      | nil => exact build_finish rfl rest
      | cons v items =>
          rw [build_firstItem]
          exact build_items ih (List.cons_ne_nil v items) stack [] rest
  | object ms ih =>
      intro stack rest
      have htokens : (Value.object ms).lexemes.map Lexeme.token ++ rest = .beginObject ::
          ((lexemes.memberLexemes ms).map Lexeme.token ++ .endObject :: rest) := by
        simp [lexemes, Lexeme.token]
      rw [htokens, build_go rfl]
      cases ms with
      | nil => exact build_finish rfl rest
      | cons m ms =>
          rw [build_firstMember]
          exact build_members ih (List.cons_ne_nil m ms) stack [] rest

end Value

/-!
# Reading what was written
-/

/-- However a value's tokens are laid out, the value's tree is read and nothing is left. -/
theorem read_of_isLaidOut {v : Value} {cs : List Char} (h : IsLaidOut v.lexemes cs) :
    Tree.read (String.ofList cs) = (v.tree, []) := by
  have hlex : Token.lex cs = v.lexemes.map Lexeme.token :=
    Token.lex_of_isLaidOut h v.isParted_lexemes
  have hbuild := v.isBuilt [] []
  rw [List.append_nil] at hbuild
  rw [Tree.read, String.toList_ofList, hlex]
  exact hbuild

theorem read_write (v : Value) : Tree.read v.write = (v.tree, []) := by
  have hlaid := Value.isLaidOut_flatMap v.lexemes
  rw [← v.write_eq_flatMap] at hlaid
  exact read_of_isLaidOut hlaid

/-- What a reader makes of a written value is what it makes of the value's tree. -/
theorem decode_write (read : Reader α) (v : Value) : decode read v.write = read v.tree := by
  rw [decode, read_write]
  cases h : read v.tree with
  | error e => simp [h, bind, Except.bind]
  | ok a => simp [h, bind, Except.bind]

end Json
end Parley
