/-!
# What a message is for

A message names its operation by a 32-bit code. The codes of one category share their high byte.
A code that no operation has is kept as it is, so reading a code never fails.

Results:
* `code_ofCode`: a code that was read is written back unchanged.
* `ofCode_code_eq_self_iff`: a kind survives the way over its code unless it is an unknown code
  that some operation has.
-/

namespace ClusterLink

/-- Broad grouping of message kinds (`MessageCategory`). -/
inductive Category where
  | databaseDefinition
  | tableDefinition
  | indexDefinition
  | dataManipulation
  | transaction
  | utility
  | unknown
  deriving DecidableEq, Repr

/-- The operation a message carries (`MessageType`). -/
inductive Kind where
  | createDatabase
  | dropDatabase
  | useDatabase
  | showDatabases
  | createTable
  | dropTable
  | alterTable
  | showTables
  | describeTable
  | createIndex
  | dropIndex
  | insert
  | select
  | update
  | delete
  | begin
  | commit
  | rollback
  | ping
  | pong
  /-- A node asks to join. -/
  | greeting
  /-- The answer to a greeting that was accepted. -/
  | welcome
  /-- An application failed to answer. -/
  | error
  /-- A code without an operation. -/
  | unknown (code : UInt32)
  deriving DecidableEq, Repr

namespace Kind

/-- The code on the wire. -/
def code : Kind → UInt32
  | createDatabase => 0x0101
  | dropDatabase => 0x0102
  | useDatabase => 0x0103
  | showDatabases => 0x0104
  | createTable => 0x0201
  | dropTable => 0x0202
  | alterTable => 0x0203
  | showTables => 0x0204
  | describeTable => 0x0205
  | createIndex => 0x0301
  | dropIndex => 0x0302
  | insert => 0x0401
  | select => 0x0402
  | update => 0x0403
  | delete => 0x0404
  | begin => 0x0501
  | commit => 0x0502
  | rollback => 0x0503
  | ping => 0x0601
  | pong => 0x0602
  | greeting => 0x0603
  | welcome => 0x0604
  | error => 0x0605
  | unknown c => c

/-- The kinds that stand for an operation. -/
def named : List Kind :=
  [createDatabase, dropDatabase, useDatabase, showDatabases, createTable, dropTable, alterTable,
    showTables, describeTable, createIndex, dropIndex, insert, select, update, delete, begin,
    commit, rollback, ping, pong, greeting, welcome, error]

/-- The operation with a code, or the bare code if there is none. -/
def ofCode (c : UInt32) : Kind :=
  match named.find? (fun k => k.code = c) with
  | some k => k
  | none => unknown c

/-- What a kind of message is for (`category`). -/
def category : Kind → Category
  | createDatabase | dropDatabase | useDatabase | showDatabases => .databaseDefinition
  | createTable | dropTable | alterTable | showTables | describeTable => .tableDefinition
  | createIndex | dropIndex => .indexDefinition
  | insert | select | update | delete => .dataManipulation
  | begin | commit | rollback => .transaction
  | ping | pong | greeting | welcome | error => .utility
  | unknown _ => .unknown

/-- Whether the body is a statement, which this library carries without looking into it
(`is_statement`). -/
def isStatement (k : Kind) : Bool :=
  match k.category with
  | .utility | .unknown => false
  | _ => true

/-- The name of a kind; a code without an operation is named by its decimal digits. -/
def text : Kind → String
  | createDatabase => "CreateDatabase"
  | dropDatabase => "DropDatabase"
  | useDatabase => "UseDatabase"
  | showDatabases => "ShowDatabases"
  | createTable => "CreateTable"
  | dropTable => "DropTable"
  | alterTable => "AlterTable"
  | showTables => "ShowTables"
  | describeTable => "DescribeTable"
  | createIndex => "CreateIndex"
  | dropIndex => "DropIndex"
  | insert => "Insert"
  | select => "Select"
  | update => "Update"
  | delete => "Delete"
  | begin => "Begin"
  | commit => "Commit"
  | rollback => "Rollback"
  | ping => "Ping"
  | pong => "Pong"
  | greeting => "Greeting"
  | welcome => "Welcome"
  | error => "Error"
  | unknown c => "Unknown(" ++ toString c.toNat ++ ")"

@[simp] theorem code_ofCode (c : UInt32) : (ofCode c).code = c := by
  unfold ofCode
  split
  · next k h => simpa using List.find?_some h
  · rfl

private theorem ofCode_code_named : ∀ k ∈ named, ofCode k.code = k := by decide

private theorem mem_named (k : Kind) : k ∈ named ∨ ∃ c, k = unknown c := by
  cases k <;> simp [named]

theorem ofCode_code_of_mem {k : Kind} (h : k ∈ named) : ofCode k.code = k :=
  ofCode_code_named k h

/-- An unknown code stays unknown exactly if no operation has it. -/
theorem ofCode_eq_unknown_iff (c : UInt32) : ofCode c = unknown c ↔ ∀ k ∈ named, k.code ≠ c := by
  unfold ofCode
  split
  · next k h =>
    have hk := List.mem_of_find?_eq_some h
    have hc : k.code = c := by simpa using List.find?_some h
    constructor
    · rintro rfl; simp [named] at hk
    · intro hall; exact absurd hc (hall k hk)
  · next h =>
    have := List.find?_eq_none.1 h
    simpa using this

theorem ofCode_code_eq_self_iff (k : Kind) :
    ofCode k.code = k ↔ ¬ ∃ c, k = unknown c ∧ ∃ n ∈ named, n.code = c := by
  rcases mem_named k with h | ⟨c, rfl⟩
  · refine iff_of_true (ofCode_code_of_mem h) ?_
    rintro ⟨c, rfl, -⟩
    simp [named] at h
  · show ofCode c = unknown c ↔ _
    rw [ofCode_eq_unknown_iff]
    constructor
    · rintro h ⟨c', he, n, hn, hc⟩
      cases he
      exact h n hn hc
    · intro h n hn hc
      exact h ⟨c, rfl, n, hn, hc⟩

end Kind

/-- The name of a category. -/
def Category.text : Category → String
  | databaseDefinition => "DatabaseDefinition"
  | tableDefinition => "TableDefinition"
  | indexDefinition => "IndexDefinition"
  | dataManipulation => "DataManipulation"
  | transaction => "Transaction"
  | utility => "Utility"
  | unknown => "Unknown"

end ClusterLink
