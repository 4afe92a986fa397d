/-
**Tokens and expressions** (`lexer.rs`, `ast.rs`).

The kinds of tokens, and the expressions, statements, patterns and types that are read from them.
Places in the text are left out.

* `TokenKind`, `Expr`, `Statement`, `MatchPattern` — as the source has them.
* `Expr.operatorNodes` — how many nodes of an expression are operators, everywhere in it.
-/

import Mathlib

namespace Semaprax.ExpressionParser

/-- A literal as the bits of its wide value. -/
structure FloatLiteral where
  value : UInt64
  wide : Bool
deriving DecidableEq

inductive TokenKind
  | ident (value : String)
  | int (value : Int64)
  | intMinMagnitude
  | int32 (value : Int32)
  | int32MinMagnitude
  | float (literal : FloatLiteral)
  | char (value : UInt32)
  | uint8 (value : UInt8)
  | usize (value : UInt64)
  | string (value : String)
  | atSign
  | lParen
  | rParen
  | lBrace
  | rBrace
  | lBracket
  | rBracket
  | colon
  | colonColon
  | dot
  | comma
  | semicolon
  | arrow
  | plus
  | minus
  | star
  | slash
  | percent
  | question
  | bang
  | eq
  | fatArrow
  | eqEq
  | bangEq
  | lt
  | le
  | gt
  | ge
  | andAnd
  | orOr
  | pipe
  | eof
deriving DecidableEq

/-- A type (`Type`). -/
inductive Ty
  | i64
  | i32
  | char
  | u8
  | usize
  | arrayU8 (length : UInt32)
  | f32
  | f64
  | bool
  | string
  | bytes
  | str
  | sliceU8
  | function (parameters : List Ty) (result : Ty)
  | named (name : String) (arguments : List Ty)

structure ClosureParam where
  name : String
  ty : Ty

inductive MatchMode
  | value
  | own
  | borrow
deriving DecidableEq

inductive PatternLiteral
  | int (value : Int64)
  | int32 (value : Int32)
  | uint8 (value : UInt8)
  | usize (value : UInt64)
  | char (value : UInt32)
  | bool (value : Bool)
deriving DecidableEq

structure MatchPatternField where
  name : String
  binding : String
deriving DecidableEq

inductive RecordMatchFieldPattern
  | binding (name : String)
  | wildcard
  | record (typeName : String) (fields : List (String × RecordMatchFieldPattern))

/-- A field of a record pattern: its name and its pattern. -/
abbrev RecordMatchPatternField := String × RecordMatchFieldPattern

inductive MatchPattern
  | variant (typeName caseName : String) (fields : List MatchPatternField)
  | record (typeName : String) (fields : List RecordMatchPatternField)
  | wildcard
  | literal (value : PatternLiteral)
  | or (alternatives : List MatchPattern)
  | binding (name : String)

inductive UnaryOp
  | neg
  | not
deriving DecidableEq

inductive BinaryOp
  | add
  | sub
  | mul
  | div
  | rem
  | eq
  | ne
  | lt
  | le
  | gt
  | ge
  | and
  | or
deriving DecidableEq

def BinaryOp.precedence : BinaryOp → Nat
  | .or => 1
  | .and => 2
  | .eq | .ne => 3
  | .lt | .le | .gt | .ge => 4
  | .add | .sub => 5
  | .mul | .div | .rem => 6

mutual

inductive Expr
  | closure (params : List ClosureParam) (returnType : Ty) (body : Expr) (owning : Bool)
  | int (value : Int64)
  | int32 (value : Int32)
  | char (value : UInt32)
  | uint8 (value : UInt8)
  | usize (value : UInt64)
  | arrayU8 (values : List UInt8)
  | repeatArrayU8 (value : UInt8) (count : UInt32)
  | float32 (bits : UInt32)
  | float64 (bits : UInt64)
  | bool (value : Bool)
  | string (value : String)
  | var (name : String)
  | call (name : String) (typeArguments : List Ty) (args : List Expr)
  | methodCall (receiver : Expr) (method : String) (typeArguments : List Ty) (args : List Expr)
  | superMethod (method : String) (args : List Expr)
  | unary (op : UnaryOp) (value : Expr)
  | binary (op : BinaryOp) (left right : Expr)
  | block (statements : List Statement) (tail : Expr)
  | ifExpression (condition thenBranch elseBranch : Expr)
  | constructRecord (typeName : String) (typeArguments : List Ty) (fields : List FieldInitializer)
  | constructVariant (typeName : String) (typeArguments : List Ty) (caseName : String)
      (fields : List FieldInitializer)
  | matchExpression (mode : MatchMode) (scrutinee : Expr) (arms : List MatchArm)
  | tryExpression (operand : Expr)
  | updateRecord (base : Expr) (fields : List FieldInitializer)
  | project (base : Expr) (field : String)

inductive FieldInitializer
  | mk (name : String) (value : Expr)

inductive MatchArm
  | mk (pattern : MatchPattern) (guard : Option Expr) (value : Expr)

inductive Statement
  | letStatement (name : String) (mutable : Bool) (declared : Option Ty) (value : Expr)
  | assign (name : String) (field : Option String) (value : Expr)
  | unsafeStatement (audit : String) (body : Expr)
  | whileStatement (condition body : Expr)
  | forStatement (item : String) (values body : Expr)
  | forOwn (item : String) (values body : Expr)

end

mutual

def Expr.operatorNodes : Expr → Nat
  | .closure _ _ body _ => body.operatorNodes
  | .call _ _ args => exprsNodes args
  | .methodCall receiver _ _ args => receiver.operatorNodes + exprsNodes args
  | .superMethod _ args => exprsNodes args
  | .unary _ value => value.operatorNodes + 1
  | .binary _ left right => left.operatorNodes + right.operatorNodes + 1
  | .block statements tail => statementsNodes statements + tail.operatorNodes
  | .ifExpression condition thenBranch elseBranch =>
    condition.operatorNodes + thenBranch.operatorNodes + elseBranch.operatorNodes
  | .constructRecord _ _ fields => fieldsNodes fields
  | .constructVariant _ _ _ fields => fieldsNodes fields
  | .matchExpression _ scrutinee arms => scrutinee.operatorNodes + armsNodes arms
  | .tryExpression operand => operand.operatorNodes
  | .updateRecord base fields => base.operatorNodes + fieldsNodes fields
  | .project base _ => base.operatorNodes
  | _ => 0

def Statement.operatorNodes : Statement → Nat
  | .letStatement _ _ _ value => value.operatorNodes
  | .assign _ _ value => value.operatorNodes
  | .unsafeStatement _ body => body.operatorNodes
  | .whileStatement condition body => condition.operatorNodes + body.operatorNodes
  | .forStatement _ values body => values.operatorNodes + body.operatorNodes
  | .forOwn _ values body => values.operatorNodes + body.operatorNodes

def FieldInitializer.operatorNodes : FieldInitializer → Nat
  | .mk _ value => value.operatorNodes

def MatchArm.operatorNodes : MatchArm → Nat
  | .mk _ none value => value.operatorNodes
  | .mk _ (some guard) value => guard.operatorNodes + value.operatorNodes

def exprsNodes : List Expr → Nat
  | [] => 0
  | expression :: rest => expression.operatorNodes + exprsNodes rest

def statementsNodes : List Statement → Nat
  | [] => 0
  | statement :: rest => statement.operatorNodes + statementsNodes rest

def fieldsNodes : List FieldInitializer → Nat
  | [] => 0
  | field :: rest => field.operatorNodes + fieldsNodes rest

def armsNodes : List MatchArm → Nat
  | [] => 0
  | arm :: rest => arm.operatorNodes + armsNodes rest

end

theorem exprsNodes_append (first second : List Expr) :
    exprsNodes (first ++ second) = exprsNodes first + exprsNodes second := by
  induction first with
  | nil => simp [exprsNodes]
  | cons expression rest ih => simp [exprsNodes, ih, Nat.add_assoc]

theorem statementsNodes_append (first second : List Statement) :
    statementsNodes (first ++ second) = statementsNodes first + statementsNodes second := by
  induction first with
  | nil => simp [statementsNodes]
  | cons statement rest ih => simp [statementsNodes, ih, Nat.add_assoc]

theorem fieldsNodes_append (first second : List FieldInitializer) :
    fieldsNodes (first ++ second) = fieldsNodes first + fieldsNodes second := by
  induction first with
  | nil => simp [fieldsNodes]
  | cons field rest ih => simp [fieldsNodes, ih, Nat.add_assoc]

theorem armsNodes_append (first second : List MatchArm) :
    armsNodes (first ++ second) = armsNodes first + armsNodes second := by
  induction first with
  | nil => simp [armsNodes]
  | cons arm rest ih => simp [armsNodes, ih, Nat.add_assoc]

end Semaprax.ExpressionParser
