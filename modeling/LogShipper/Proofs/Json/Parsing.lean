import LogShipper.Json.Reading
import LogShipper.Proofs.Json.Lexing

/-!
# The tree of a document

The tokens of a document are arranged into the tree of the document. A reader of the text is thus
run on that tree, and since nothing in it is cut off, a reader that only passes over it never fails.

Results:
* `Script.run_tokens`: where a value is wanted, the tokens of a document give its tree.
* `Script.tree_text`: the tree of the text.
* `Script.skip_node`: a document can be passed over.
* `Script.readText_text`: reading the text is reading the tree.
-/

namespace LogShipper.Json

/-- A value may begin wherever the end of an empty array may stand. -/
theorem State.run_item (stack : List Frame) {t : Token} (h : t ≠ .closeArray) (ts : List Token)
    (found : Found) :
    (State.mk .item (.array [] :: stack)).run (t :: ts) found =
      (State.mk .value (.array [] :: stack)).run (t :: ts) found := by
  have feed : (State.mk .item (.array [] :: stack)).feed t =
      (State.mk .value (.array [] :: stack)).feed t := by
    cases t with
    | closeArray => exact absurd rfl h
    | _ => rfl
  rw [State.run, State.run, feed]

namespace Script

mutual

/-- **The tokens of a document** give its tree, whatever containers are open around it. The
induction is on the document; what is open holds the items and members read so far. -/
theorem run_tokens (d : Script) (stack : List Frame) (ts : List Token) (found : Found) :
    (State.mk .value stack).run (d.tokens ++ ts) found =
      (State.mk (.after d.node) stack).run ts found := by
  match d with
  | .leaf _ l _ =>
    rw [tokens, node]
    rfl
  | .array _ _ [] _ =>
    rw [tokens, node]
    rfl
  | .array _ _ (d :: items) _ =>
    rw [tokens, node, List.cons_append, List.append_assoc]
    obtain ⟨t, more, htokens, ht⟩ := d.tokens_eq_cons
    calc (State.mk .value stack).run (.openArray :: (d.tokens ++ (itemTokens items ++ ts))) found
      _ = (State.mk .item (.array [] :: stack)).run (d.tokens ++ (itemTokens items ++ ts)) found :=
        rfl
      _ = (State.mk .value (.array [] :: stack)).run (d.tokens ++ (itemTokens items ++ ts))
          found := by
        rw [htokens]
        exact State.run_item stack ht _ found
      _ = (State.mk (.after d.node) (.array [] :: stack)).run (itemTokens items ++ ts) found :=
        run_tokens d _ _ found
      _ = _ := run_itemTokens items [] d.node stack ts found
  | .object _ _ [] _ =>
    rw [tokens, node]
    rfl
  | .object _ _ ((k, d) :: members) _ =>
    rw [tokens, node]
    simp only [List.cons_append, List.append_assoc]
    exact (run_tokens d (.member [] k.lexeme :: stack) _ found).trans
      (run_memberTokens members [] k.lexeme d.node stack ts found)

/-- The items after one that was read. -/
theorem run_itemTokens (items : List Script) (done : List Node) (n : Node) (stack : List Frame)
    (ts : List Token) (found : Found) :
    (State.mk (.after n) (.array done :: stack)).run (itemTokens items ++ ts) found =
      (State.mk (.after (.array (done.reverse ++ n :: itemNodes items) .closed)) stack).run ts
        found := by
  match items with
  | [] =>
    rw [itemTokens, itemNodes, ← List.reverse_cons]
    rfl
  | d :: items =>
    rw [itemTokens, itemNodes, List.cons_append, List.append_assoc]
    have more := run_itemTokens items (n :: done) d.node stack ts found
    rw [List.reverse_cons, List.append_assoc] at more
    exact (run_tokens d (.array (n :: done) :: stack) _ found).trans more

/-- The members after one that was read. -/
theorem run_memberTokens (members : List (Key × Script)) (done : List (Lexeme × Node))
    (key : Lexeme) (n : Node) (stack : List Frame) (ts : List Token) (found : Found) :
    (State.mk (.after n) (.member done key :: stack)).run (memberTokens members ++ ts) found =
      (State.mk (.after (.object (done.reverse ++ (key, n) :: memberNodes members) .closed))
        stack).run ts found := by
  match members with
  | [] =>
    rw [memberTokens, memberNodes, ← List.reverse_cons]
    rfl
  | (k, d) :: members =>
    rw [memberTokens, memberNodes]
    simp only [List.cons_append, List.append_assoc]
    have more := run_memberTokens members ((key, n) :: done) k.lexeme d.node stack ts found
    rw [List.reverse_cons, List.append_assoc] at more
    exact (run_tokens d (.member ((key, n) :: done) k.lexeme :: stack) _ found).trans more

end

/-- **The tree of the text** of a document: nothing stands after it. -/
theorem tree_text (d : Script) : Tree.ofText d.text = ⟨d.node, none⟩ := by
  rw [Tree.ofText, text, String.toList_ofList, lex_chars, Tree.ofTokens]
  have whole := d.run_tokens [] [] (.ending .truncated)
  rw [List.append_nil] at whole
  exact whole

mutual

/-- **A document can be passed over**, whatever it holds. -/
theorem skip_node (d : Script) : d.node.skip = .ok () := by
  match d with
  | .leaf _ l _ =>
    rw [node, Node.skip]
    rfl
  | .array _ _ items _ =>
    rw [node, Node.skip, skip_itemNodes items]
    rfl
  | .object _ _ members _ =>
    rw [node, Node.skip, skip_memberNodes members]
    rfl

/-- Items can be passed over. -/
theorem skip_itemNodes (items : List Script) : skipItems (itemNodes items) = .ok () := by
  match items with
  | [] =>
    rw [itemNodes]
    rfl
  | d :: items =>
    rw [itemNodes, skipItems, skip_node d, skip_itemNodes items]
    rfl

/-- Members can be passed over. -/
theorem skip_memberNodes (members : List (Key × Script)) :
    skipMembers (memberNodes members) = .ok () := by
  match members with
  | [] =>
    rw [memberNodes]
    rfl
  | (k, d) :: members =>
    rw [memberNodes, skipMembers, skip_node d, skip_memberNodes members]
    rfl

end

/-- **Reading the text** of a document is reading its tree. -/
theorem readText_text {α : Type} (r : Reader α) (d : Script) : readText r d.text = r d.node := by
  rw [readText, tree_text, readTree]
  cases r d.node <;> rfl

end Script

end LogShipper.Json
