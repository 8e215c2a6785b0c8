import Treeline.Document.Printer
import Treeline.Proofs.Vocabulary
import Treeline.Tree.Label

namespace Treeline

-- A label tells the kind of its node by the word that it begins with, and then all of the node but its children.

-- Two texts cut at the first of some character.
theorem append_cons_inj {α : Type} {c : α} {first second rest rest' : List α} (without : c ∉ first)
    (without' : c ∉ second) (same : first ++ c :: rest = second ++ c :: rest') : first = second ∧ rest = rest' := by
  induction first generalizing second with
  | nil =>
    cases second with
    | nil => exact ⟨rfl, (List.cons.inj same).2⟩
    | cons d second => exact absurd (List.cons.inj same).1 fun equal => without' (equal ▸ List.mem_cons_self)
  | cons d first ih =>
    cases second with
    | nil => exact absurd (List.cons.inj same).1 fun equal => without (equal ▸ List.mem_cons_self)
    | cons d' second =>
      obtain ⟨rfl, others⟩ := List.cons.inj same
      obtain ⟨rfl, equal⟩ := ih (fun member => without (List.mem_cons_of_mem _ member))
        (fun member => without' (List.mem_cons_of_mem _ member)) others
      exact ⟨rfl, equal⟩

theorem toList_toString (i : Int) : (toString i).toList = Document.integerChars i := by
  rw [Int.toString_eq_repr]
  cases i with
  | ofNat n => simp [Int.repr, Nat.repr, Document.integerChars]
  | negSucc n => simp [Int.repr, Nat.repr, Document.integerChars]

theorem toDigits_inj {n m : Nat} (same : Nat.toDigits 10 n = Nat.toDigits 10 m) : n = m := by
  have value := @Nat.ofDigitChars_ten_toDigits n
  rw [same, Nat.ofDigitChars_ten_toDigits] at value
  exact value.symm

theorem not_mem_toDigits {c : Char} (other : c.isDigit = false) (n : Nat) : c ∉ Nat.toDigits 10 n := by
  intro member
  have digit := Nat.isDigit_of_mem_toDigits (by decide) (by decide) member
  rw [other] at digit
  cases digit

theorem integerChars_inj {i j : Int} (same : Document.integerChars i = Document.integerChars j) : i = j := by
  have minus : ∀ n digits, Nat.toDigits 10 n ≠ '-' :: digits := by
    intro n digits spelled
    exact not_mem_toDigits (c := '-') rfl n (spelled ▸ List.mem_cons_self)
  cases i with
  | ofNat n =>
    cases j with
    | ofNat m => exact congrArg Int.ofNat (toDigits_inj same)
    | negSucc m => exact absurd same (minus n _)
  | negSucc n =>
    cases j with
    | ofNat m => exact absurd same.symm (minus m _)
    | negSucc m => exact congrArg Int.negSucc (Nat.succ.inj (toDigits_inj (List.cons.inj same).2))

namespace Kind

-- What the labels of a kind begin with.
def word : Kind → String
  | .expression .string => ExpressionKind.string.tag
  | .expression kind => kind.title
  | .statement kind => kind.title

instance : Vocabulary Kind where
  words := (Vocabulary.words : List ExpressionKind).map .expression ++
    (Vocabulary.words : List StatementKind).map .statement
  spell := word

theorem faithful : Vocabulary.Faithful Kind := by
  intro kind
  rcases kind with kind | kind <;> cases kind <;> rfl

theorem not_mem_word {c : Char} (other : c.isAlpha = false) (kind : Kind) : c ∉ kind.word.toList := by
  have letters : kind.word.toList.all Char.isAlpha = true := by
    rcases kind with kind | kind <;> cases kind <;> rfl
  intro member
  have letter := List.all_eq_true.mp letters c member
  rw [other] at letter
  cases letter

end Kind

-- A text that is a word, or goes on behind it with a colon.
def BeginsWith (word text : String) : Prop :=
  ∃ tail, text.toList = word.toList ++ tail ∧ ∀ c ∈ tail.head?, c = ':'

namespace BeginsWith

theorem self (word : String) : BeginsWith word word := ⟨[], by simp⟩

theorem title {word title : String} (spelled : title.toList = word.toList ++ [':', ' ']) (detail : String) :
    BeginsWith word (title ++ detail) :=
  ⟨':' :: ' ' :: detail.toList, by simp [spelled], by simp⟩

theorem typed {word title : String} (spelled : title.toList = word.toList ++ [':', ' ']) (type name : String) :
    BeginsWith word (title ++ type ++ " " ++ name) :=
  ⟨':' :: ' ' :: (type.toList ++ ' ' :: name.toList), by simp [spelled], by simp⟩

theorem takeWhile_eq {word text : String} (begins : BeginsWith word text) (plain : ':' ∉ word.toList) :
    text.toList.takeWhile (· != ':') = word.toList := by
  obtain ⟨tail, spelled, colon⟩ := begins
  have before : ∀ c ∈ word.toList, (c != ':') = true := by
    intro c member
    have other : c ≠ ':' := fun equal => plain (equal ▸ member)
    simpa using other
  rw [spelled, List.takeWhile_append_of_pos before]
  cases tail with
  | nil => simp
  | cons c tail => simp [colon c rfl]

end BeginsWith

theorem Expression.beginsWith_word (e : Expression) : BeginsWith (Kind.expression e.kind).word e.label := by
  cases e <;> exact .title (by simp [Kind.word, Expression.kind, ExpressionKind.title, ExpressionKind.tag]) _

theorem Assignment.beginsWith_word (a : Assignment) : BeginsWith (Kind.statement .assignment).word a.label :=
  .title (by simp [Kind.word, StatementKind.title]) _

theorem Variable.beginsWith_word (v : Variable) : BeginsWith (Kind.statement .variableDecl).word v.label :=
  .typed (by simp [Kind.word, StatementKind.title]) _ _

theorem Statement.beginsWith_word (s : Statement) : BeginsWith (Kind.statement s.kind).word s.label := by
  cases s with
  | assignment a => exact a.beginsWith_word
  | variableDecl v => exact v.beginsWith_word
  | functionDecl => exact .typed (by simp [Kind.word, Statement.kind, StatementKind.title]) _ _
  | classDecl => exact .title (by simp [Kind.word, Statement.kind, StatementKind.title]) _
  | _ => exact .self _

theorem Node.beginsWith_word (node : Node) : BeginsWith node.kind.word node.label := by
  cases node with
  | expression e => exact e.beginsWith_word
  | comparison c => exact c.toExpression.beginsWith_word
  | assignment a => exact a.beginsWith_word
  | variableDecl v => exact v.beginsWith_word
  | block b => exact .self _
  | statement s => exact s.beginsWith_word

theorem Node.kind_eq_of_label {node other : Node} (same : node.label = other.label) : node.kind = other.kind := by
  have first := node.beginsWith_word.takeWhile_eq (node.kind.not_mem_word rfl)
  have second := other.beginsWith_word.takeWhile_eq (other.kind.not_mem_word rfl)
  rw [same, second] at first
  exact Kind.faithful.eq_of_spell (String.toList_inj.mp first.symm)

-- What is no word and has no colon is no label.
theorem Node.label_ne {text : String} (plain : ':' ∉ text.toList) (unknown : Vocabulary.ofText? Kind text = none)
    (node : Node) : node.label ≠ text := by
  intro same
  obtain ⟨tail, spelled, colon⟩ := node.beginsWith_word
  rw [same] at spelled
  cases tail with
  | nil =>
    have word : text = node.kind.word := String.toList_inj.mp (spelled.trans (List.append_nil _))
    rw [word] at unknown
    exact absurd ((Kind.faithful node.kind).symm.trans unknown) (by simp)
  | cons c tail =>
    refine plain ?_
    rw [spelled, colon c rfl]
    exact List.mem_append_right _ List.mem_cons_self

-- A type and a name are told apart by the first space.
theorem spaced_inj {type type' name name' : String} (single : ' ' ∉ type.toList) (single' : ' ' ∉ type'.toList)
    (same : type ++ " " ++ name = type' ++ " " ++ name') : type = type' ∧ name = name' := by
  have chars := congrArg String.toList same
  simp only [String.toList_append, List.append_assoc] at chars
  obtain ⟨types, names⟩ := append_cons_inj single single' chars
  exact ⟨String.toList_inj.mp types, String.toList_inj.mp names⟩

theorem typed_inj {title type type' name name' : String} (single : ' ' ∉ type.toList) (single' : ' ' ∉ type'.toList)
    (same : title ++ type ++ " " ++ name = title ++ type' ++ " " ++ name') : type = type' ∧ name = name' := by
  have regroup (type name : String) : title ++ type ++ " " ++ name = title ++ (type ++ " " ++ name) := by
    apply String.toList_inj.mp
    simp only [String.toList_append, List.append_assoc]
  rw [regroup, regroup, String.append_right_inj] at same
  exact spaced_inj single single' same

-- An expression without its children.
def Expression.shell : Expression → Expression
  | .unary operator _ => .unary operator none
  | .binary operator _ _ => .binary operator none none
  | .comparison operator _ _ => .comparison operator none none
  | .call callee _ => .call callee []
  | leaf => leaf

theorem Expression.shell_eq_of_label {e f : Expression} (exact : ∀ x, e ≠ .double x) (same : e.label = f.label) :
    e.shell = f.shell := by
  have kind : (Node.expression e).kind = (Node.expression f).kind := Node.kind_eq_of_label same
  cases e with
  | double x => exact absurd rfl (exact x)
  | integer i =>
    cases f with
    | integer j =>
      have digits := congrArg String.toList ((String.append_right_inj _).mp same)
      rw [toList_toString, toList_toString] at digits
      rw [Int64.toInt_inj.mp (integerChars_inj digits)]
    | _ => cases kind
  | string value =>
    cases f with
    | string other => rw [(String.append_right_inj _).mp same]
    | _ => cases kind
  | boolean value =>
    cases f with
    | boolean other =>
      have word := (String.append_right_inj _).mp same
      cases value <;> cases other <;> first | rfl | simp at word
    | _ => cases kind
  | identifier name =>
    cases f with
    | identifier other => rw [(String.append_right_inj _).mp same]
    | _ => cases kind
  | unary operator operand =>
    cases f with
    | unary other => exact congrArg (unary · none) (unaryOp_faithful.eq_of_spell ((String.append_right_inj _).mp same))
    | _ => cases kind
  | binary operator left right =>
    cases f with
    | binary other =>
      exact congrArg (binary · none none) (binaryOp_faithful.eq_of_spell ((String.append_right_inj _).mp same))
    | _ => cases kind
  | comparison operator left right =>
    cases f with
    | comparison other =>
      exact congrArg (comparison · none none) (compareOp_faithful.eq_of_spell ((String.append_right_inj _).mp same))
    | _ => cases kind
  | call callee arguments =>
    cases f with
    | call other => exact congrArg (call · []) ((String.append_right_inj _).mp same)
    | _ => cases kind

theorem Assignment.target_eq_of_label {a b : Assignment} (same : a.label = b.label) : a.target = b.target :=
  (String.append_right_inj _).mp same

theorem Variable.names_eq_of_label {v w : Variable} (single : ' ' ∉ v.typeName.toList)
    (single' : ' ' ∉ w.typeName.toList) (same : v.label = w.label) : v.typeName = w.typeName ∧ v.name = w.name :=
  typed_inj single single' same

end Treeline
