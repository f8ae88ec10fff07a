import Scriptling.Proofs.Json.Members
import Scriptling.Proofs.Json.Printed

/-!
# Trees as data and back

A tree that is written as data is read back from it (`Expr.ofJsonWithin?_toJson`,
`Stmt.ofJsonWithin?_toJson`): the height of the data goes down at every node, so there is always
depth left for the parts of a node. An `else` branch is told from none because no statement is
written as `null`.

How a tree is read is free of the order of members (`Program.orderFree_ofJson?`), so the tree is
read back from whatever is the same data. And data can be told from its text. So nothing of a
program is lost, neither in the data nor in the text (`Program.toJson_lossless`).
-/

namespace Scriptling

open Json (OrderFree)

/-! ## What was written is read -/

namespace Json

variable {α : Type}

@[simp] theorem str?_str (s : String) : str? (.str s) = some s := rfl

@[simp] theorem bool?_bool (b : Bool) : bool? (.bool b) = some b := rfl

/-- Every word fits. -/
@[simp] theorem int64?_toInt (n : Int64) : int64? (.int n.toInt) = some n := by
  have hfits : Int64.minValue.toInt ≤ n.toInt ∧ n.toInt ≤ Int64.maxValue.toInt :=
    ⟨n.minValue_le_toInt, n.toInt_le⟩
  rw [int64?, if_pos hfits, Int64.ofInt_toInt]

section

variable (j : Json) (ms : List (String × Json))

@[simp] theorem get?_cons_self (key : String) : get? key (.obj ((key, j) :: ms)) = some j := by
  simp [get?]

@[simp] theorem get?_cons_of_ne {key name : String} (h : key ≠ name) :
    get? key (.obj ((name, j) :: ms)) = get? key (.obj ms) := by
  have hne : (key == name) = false := beq_false_of_ne h
  simp only [get?, List.lookup_cons, hne]

end

section

variable {plain? : Span → String → Option α} {parts? : Span → String → Json → Option α}

/-- A kind of node with parts. -/
@[simp] theorem node?_parts (s : Span) (name : String) (parts : Json) :
    (node s (.obj [(name, parts)])).node? plain? parts? = parts? s name parts := rfl

end

/-- At a node there is depth left for what is in it. -/
theorem exists_of_height_node_le {s : Span} {inside : Json} {depth : Nat}
    (h : (node s inside).height ≤ depth) : ∃ n, depth = n + 1 ∧ inside.height ≤ n := by
  simp only [node, height, heightMembers] at h
  exact ⟨depth - 1, by omega, by omega⟩

end Json

@[simp] theorem ArithOp.ofJson?_label (op : ArithOp) : ofJson? (.str op.label) = some op := by
  cases op <;> rfl

@[simp] theorem CompareOp.ofJson?_label (op : CompareOp) : ofJson? (.str op.label) = some op := by
  cases op <;> rfl

@[simp] theorem LogicOp.ofJson?_label (op : LogicOp) : ofJson? (.str op.label) = some op := by
  cases op <;> rfl

@[simp] theorem UnaryOp.ofJson?_label (op : UnaryOp) : ofJson? (.str op.label) = some op := by
  cases op <;> rfl

namespace Expr

theorem ofJsonWithin?_succ (depth : Nat) : ofJsonWithin? (depth + 1) =
    Json.node? plainOfJson? (partsOfJson? (ofJsonWithin? depth)) := rfl

/-- **Expressions are read back** within any depth that the data does not exceed. -/
theorem ofJsonWithin?_toJson (e : Expr) {depth : Nat} (h : e.toJson.height ≤ depth) :
    ofJsonWithin? depth e.toJson = some e := by
  induction e generalizing depth with
  | readInt | readStr =>
    obtain ⟨n, rfl, -⟩ := Json.exists_of_height_node_le h
    rfl
  | int | str | bool | var =>
    obtain ⟨n, rfl, -⟩ := Json.exists_of_height_node_le h
    simp [toJson, ofJsonWithin?_succ, partsOfJson?]
  | unary _ _ e ih | length _ e ih =>
    rw [toJson] at h ⊢
    obtain ⟨n, rfl, hparts⟩ := Json.exists_of_height_node_le h
    simp only [Json.height, Json.heightMembers] at hparts
    have he : ofJsonWithin? n e.toJson = some e := ih (by omega)
    simp [ofJsonWithin?_succ, partsOfJson?, Json.member?, he]
  | arith _ l _ r ihl ihr | compare _ l _ r ihl ihr | logic _ l _ r ihl ihr
  | position _ l r ihl ihr | concatenate _ l r ihl ihr =>
    rw [toJson] at h ⊢
    obtain ⟨n, rfl, hparts⟩ := Json.exists_of_height_node_le h
    simp only [Json.height, Json.heightMembers] at hparts
    have hl : ofJsonWithin? n l.toJson = some l := ihl (by omega)
    have hr : ofJsonWithin? n r.toJson = some r := ihr (by omega)
    simp [ofJsonWithin?_succ, partsOfJson?, Json.member?, hl, hr]
  | substring _ t b k iht ihb ihk =>
    rw [toJson] at h ⊢
    obtain ⟨n, rfl, hparts⟩ := Json.exists_of_height_node_le h
    simp only [Json.height, Json.heightMembers] at hparts
    have ht : ofJsonWithin? n t.toJson = some t := iht (by omega)
    have hb : ofJsonWithin? n b.toJson = some b := ihb (by omega)
    have hk : ofJsonWithin? n k.toJson = some k := ihk (by omega)
    simp [ofJsonWithin?_succ, partsOfJson?, Json.member?, ht, hb, hk]

@[simp] theorem ofJson?_toJson (e : Expr) : ofJson? e.toJson = some e :=
  ofJsonWithin?_toJson e (Nat.le_refl _)

end Expr

namespace Stmt

theorem ofJsonWithin?_succ (depth : Nat) : ofJsonWithin? (depth + 1) =
    Json.node? plainOfJson? (partsOfJson? (ofJsonWithin? depth)) := rfl

/-- A conditional as read from data, given what stands in the place of its `else` branch: there is
none if the member is absent, and none if it is `null`. -/
def orElse? (inner? : Json → Option Stmt) (s : Span) (cond : Expr) (yes : Stmt) :
    Option Json → Option Stmt
  | none | some .null => some (ifThen s cond yes)
  | some no => (inner? no).map (ifThenElse s cond yes)

theorem partsOfJson?_if (inner? : Json → Option Stmt) (s : Span) (j : Json) :
    partsOfJson? inner? s "If" j =
      (j.member? "cond" Expr.ofJson?).bind fun cond =>
        (j.member? "then_branch" inner?).bind fun yes =>
          orElse? inner? s cond yes (j.get? "else_branch") := rfl

theorem partsOfJson?_block (inner? : Json → Option Stmt) (s : Span) (j : Json) :
    partsOfJson? inner? s "Block" j = (j.items? inner?).map (block s) := by
  cases j <;> rfl

/-- No statement is written as `null`. -/
theorem orElse?_toJson (inner? : Json → Option Stmt) (s : Span) (cond : Expr) (yes no : Stmt) :
    orElse? inner? s cond yes (some no.toJson) =
      (inner? no.toJson).map (ifThenElse s cond yes) := by
  cases no <;> rfl

/-- A list of statements is read back if each of them is. -/
theorem mapM_toJsons {read? : Json → Option Stmt} {body : List Stmt}
    (h : ∀ s ∈ body, read? s.toJson = some s) : (toJsons body).mapM read? = some body := by
  induction body with
  | nil => rfl
  | cons s rest ih =>
    have hs : read? s.toJson = some s := h s List.mem_cons_self
    have hrest := ih fun t ht => h t (List.mem_cons_of_mem s ht)
    simp [toJsons, hs, hrest]

mutual

/-- **Statements are read back** within any depth that the data does not exceed. -/
theorem ofJsonWithin?_toJson : ∀ (s : Stmt) {depth : Nat}, s.toJson.height ≤ depth →
    ofJsonWithin? depth s.toJson = some s
  | .break_ _, depth, h | .continue_ _, depth, h | .exit_ _, depth, h => by
    obtain ⟨n, rfl, -⟩ := Json.exists_of_height_node_le h
    rfl
  | .assign .., depth, h | .print .., depth, h => by
    obtain ⟨n, rfl, -⟩ := Json.exists_of_height_node_le h
    simp [toJson, ofJsonWithin?_succ, partsOfJson?, Json.member?]
  | .ifThen s c yes, depth, h => by
    rw [toJson] at h ⊢
    obtain ⟨n, rfl, hparts⟩ := Json.exists_of_height_node_le h
    simp only [Json.height, Json.heightMembers] at hparts
    have hyes : ofJsonWithin? n yes.toJson = some yes := ofJsonWithin?_toJson yes (by omega)
    have hnone : orElse? (ofJsonWithin? n) s c yes (some .null) = some (ifThen s c yes) := rfl
    simp [ofJsonWithin?_succ, partsOfJson?_if, Json.member?, hyes, hnone]
  | .ifThenElse s c yes no, depth, h => by
    rw [toJson] at h ⊢
    obtain ⟨n, rfl, hparts⟩ := Json.exists_of_height_node_le h
    simp only [Json.height, Json.heightMembers] at hparts
    have hyes : ofJsonWithin? n yes.toJson = some yes := ofJsonWithin?_toJson yes (by omega)
    have hno : ofJsonWithin? n no.toJson = some no := ofJsonWithin?_toJson no (by omega)
    simp [ofJsonWithin?_succ, partsOfJson?_if, Json.member?, hyes, orElse?_toJson, hno]
  | .forTo _ _ _ _ body, depth, h => by
    rw [toJson] at h ⊢
    obtain ⟨n, rfl, hparts⟩ := Json.exists_of_height_node_le h
    simp only [Json.height, Json.heightMembers] at hparts
    have hbody : ofJsonWithin? n body.toJson = some body := ofJsonWithin?_toJson body (by omega)
    simp [ofJsonWithin?_succ, partsOfJson?, Json.member?, hbody]
  | .block _ body, depth, h => by
    rw [toJson] at h ⊢
    obtain ⟨n, rfl, hparts⟩ := Json.exists_of_height_node_le h
    simp only [Json.height, Json.heightMembers] at hparts
    have hbody : (toJsons body).mapM (ofJsonWithin? n) = some body :=
      mapM_toJsons (ofJsonWithin?_toJson_of_mem body (by omega))
    simp [ofJsonWithin?_succ, partsOfJson?_block, Json.items?, hbody]

theorem ofJsonWithin?_toJson_of_mem : ∀ (body : List Stmt) {depth : Nat},
    Json.heightItems (toJsons body) ≤ depth →
    ∀ s ∈ body, ofJsonWithin? depth s.toJson = some s
  | [], _, _ => nofun
  | s :: rest, depth, h => by
    simp only [toJsons, Json.heightItems] at h
    have hs : ofJsonWithin? depth s.toJson = some s := ofJsonWithin?_toJson s (by omega)
    exact List.forall_mem_cons.mpr ⟨hs, ofJsonWithin?_toJson_of_mem rest (by omega)⟩

end

end Stmt

/-- **Programs are read back.** -/
theorem Program.ofJson?_toJson (p : Program) : ofJson? p.toJson = some p := by
  -- each statement is read within the height of its own data
  have hbody : (Stmt.toJsons p.body).mapM Stmt.ofJson? = some p.body :=
    Stmt.mapM_toJsons fun s _ => Stmt.ofJsonWithin?_toJson s (Nat.le_refl _)
  simp [ofJson?, toJson, hbody]

/-! ## The order of members -/

theorem ArithOp.orderFree_ofJson? : OrderFree ofJson? :=
  OrderFree.str?.bind fun _ => .const _

theorem CompareOp.orderFree_ofJson? : OrderFree ofJson? :=
  OrderFree.str?.bind fun _ => .const _

theorem LogicOp.orderFree_ofJson? : OrderFree ofJson? :=
  OrderFree.str?.bind fun _ => .const _

theorem UnaryOp.orderFree_ofJson? : OrderFree ofJson? :=
  OrderFree.str?.bind fun _ => .const _

namespace Expr

theorem orderFree_partsOfJson? {inner? : Json → Option Expr} (h : OrderFree inner?) (s : Span)
    (name : String) : OrderFree (partsOfJson? inner? s name) := by
  intro j k hjk
  simp only [partsOfJson?, OrderFree.int64? hjk, OrderFree.str? hjk, OrderFree.bool? hjk, h hjk,
    h.member? _ hjk, ArithOp.orderFree_ofJson?.member? _ hjk,
    CompareOp.orderFree_ofJson?.member? _ hjk, LogicOp.orderFree_ofJson?.member? _ hjk,
    UnaryOp.orderFree_ofJson?.member? _ hjk]

theorem orderFree_ofJsonWithin? (depth : Nat) : OrderFree (ofJsonWithin? depth) := by
  induction depth with
  | zero => exact .const none
  | succ depth ih => exact .node? plainOfJson? (orderFree_partsOfJson? ih)

theorem orderFree_ofJson? : OrderFree ofJson? :=
  .within_height orderFree_ofJsonWithin?

end Expr

namespace Stmt

variable {inner? : Json → Option Stmt}

theorem orderFree_orElse? (h : OrderFree inner?) (s : Span) (cond : Expr) (yes : Stmt) :
    OrderFree fun no => orElse? inner? s cond yes (some no) :=
  .of_compound (h.map (ifThenElse s cond yes)) (fun _ => rfl) fun _ => rfl

theorem orderFree_partsOfJson? (h : OrderFree inner?) (s : Span) (name : String) :
    OrderFree (partsOfJson? inner? s name) := by
  have hexpr (key : String) : OrderFree (Json.member? key Expr.ofJson?) :=
    Expr.orderFree_ofJson?.member? key
  have hstmt (key : String) : OrderFree (Json.member? key inner?) := h.member? key
  intro j k hjk
  by_cases hif : name = "If"
  · rw [hif, partsOfJson?_if, partsOfJson?_if]
    exact (hexpr "cond").bind (fun cond => (hstmt "then_branch").bind fun yes =>
      .get? (orderFree_orElse? h s cond yes) "else_branch") hjk
  by_cases hblock : name = "Block"
  · rw [hblock, partsOfJson?_block, partsOfJson?_block, h.items? hjk]
  · -- the other kinds have neither a list nor a member that may be absent
    unfold partsOfJson?
    split
    case h_3 => exact absurd rfl hif
    case h_5 => exact absurd rfl hblock
    all_goals simp only [OrderFree.str?.member? _ hjk, hexpr _ hjk, hstmt _ hjk]

theorem orderFree_ofJsonWithin? (depth : Nat) : OrderFree (ofJsonWithin? depth) := by
  induction depth with
  | zero => exact .const none
  | succ depth ih => exact .node? plainOfJson? (orderFree_partsOfJson? ih)

theorem orderFree_ofJson? : OrderFree ofJson? :=
  .within_height orderFree_ofJsonWithin?

end Stmt

namespace Program

theorem ofJson?_eq (j : Json) :
    ofJson? j = (j.member? "body" (Json.items? Stmt.ofJson?)).map Program.mk := by
  rw [ofJson?, Json.member?]
  rcases j.get? "body" with _ | body
  · rfl
  · cases body <;> rfl

/-- **Reading is free of the order** of members. -/
theorem orderFree_ofJson? : OrderFree ofJson? := by
  intro j k h
  rw [ofJson?_eq, ofJson?_eq, Stmt.orderFree_ofJson?.items?.member? "body" h]

/-- **Nothing is lost.** A program is read back from its data, and from whatever is the same data
with members in another order. So programs with the same data are the same, and so are programs of
which the data has the same text. -/
theorem toJson_lossless (p : Program) :
    ofJson? p.toJson = some p ∧
    (∀ j, p.toJson.Reordered j → ofJson? j = some p) ∧
    (∀ q : Program, p.toJson.Reordered q.toJson → p = q) ∧
    ∀ q : Program, p.toJson.pretty "" = q.toJson.pretty "" → p = q := by
  have hback (j : Json) (h : p.toJson.Reordered j) : ofJson? j = some p := by
    rw [← orderFree_ofJson? h, ofJson?_toJson]
  have hsame (q : Program) (h : p.toJson.Reordered q.toJson) : p = q := by
    have hq := hback q.toJson h
    rw [ofJson?_toJson] at hq
    exact (Option.some.inj hq).symm
  refine ⟨ofJson?_toJson p, hback, hsame, fun q h => hsame q ?_⟩
  rw [Json.pretty_injective "" h]
  exact .refl _

/-- A conditional without `else` around the least integer, with a span that is out of order, read
from data with members at other places on three levels, the `null` among them. -/
theorem toJson_lossless_elsewhere :
    ∃ (p : Program) (cond yes j : Json),
      p = ⟨[.ifThen ⟨7, 3⟩ (.int ⟨0, 0⟩ Int64.minValue) (.print ⟨5, 5⟩ (.str ⟨1, 2⟩ "é\"\n"))]⟩ ∧
      cond = .node ⟨0, 0⟩ (.obj [("IntLit", .int (-9223372036854775808))]) ∧
      yes = .node ⟨5, 5⟩ (.obj [("Print",
        .obj [("value", .node ⟨1, 2⟩ (.obj [("StringLit", .str "é\"\n")]))])]) ∧
      j = .obj [("body", .arr [.obj [
        ("span", .obj [("end", .int 3), ("start", .int 7)]),
        ("node", .obj [("If",
          .obj [("cond", cond), ("else_branch", .null), ("then_branch", yes)])])]])] ∧
      p.toJson.Reordered j ∧ ofJson? j = some p := by
  let p : Program :=
    ⟨[.ifThen ⟨7, 3⟩ (.int ⟨0, 0⟩ Int64.minValue) (.print ⟨5, 5⟩ (.str ⟨1, 2⟩ "é\"\n"))]⟩
  have hreordered := Json.Reordered.member [] "body" [] <| .item [] [] <|
    .trans (.member [] "node" [("span", Span.toJson ⟨7, 3⟩)] <| .member [] "If" [] <|
      .swap [("cond", (Expr.int ⟨0, 0⟩ Int64.minValue).toJson)]
        (m := ("then_branch", (Stmt.print ⟨5, 5⟩ (.str ⟨1, 2⟩ "é\"\n")).toJson))
        (n := ("else_branch", .null)) [] (by decide)) <|
    .trans (.swap [] [] (by decide)) <|
    .member [] "span" _ <| .swap [] [] (by decide)
  refine ⟨p, _, _, _, rfl, rfl, rfl, rfl, hreordered, ?_⟩
  exact (toJson_lossless p).2.1 _ hreordered

end Program

end Scriptling
