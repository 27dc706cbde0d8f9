import IpcChecker.Connection
import IpcChecker.Shared.Text

/-!
# Connection types and connection strings

`Convert` and `ToString` of the connection types, and the strings `type://id` that
the options for connections take.
-/

namespace IpcChecker
open Shared
set_option autoImplicit false

/-- The bytes of a `std::string_view`. -/
abbrev StringView : Type := List UInt8

def ConnectionType.toString : ConnectionType → StringView
  | .kNetSocket => Text.bytes "netsock"
  | .kPipe => Text.bytes "pipe"
  | .kSharedMemory => Text.bytes "shmem"
  | .kUnixSocket => Text.bytes "uxsock"

def convert {σ : Type} (connection : StringView) : Action σ ConnectionType :=
  if connection = Text.bytes "netsock" then pure .kNetSocket
  else if connection = Text.bytes "pipe" then pure .kPipe
  else if connection = Text.bytes "shmem" then pure .kSharedMemory
  else if connection = Text.bytes "uxsock" then pure .kUnixSocket
  else throw (.exception
    ("Unsupported connection type: name=\"" ++ Text.ofBytes connection ++ "\""))

section Convert
variable {σ : Type} {connection : StringView}

theorem convert_toString (type : ConnectionType) :
    (convert type.toString : Action σ ConnectionType) = pure type := by
  cases type <;> rfl

theorem convert_other (h : ∀ type : ConnectionType, connection ≠ type.toString) :
    (convert connection : Action σ ConnectionType) = throw (.exception
      ("Unsupported connection type: name=\"" ++ Text.ofBytes connection ++ "\"")) := by
  apply (if_neg (h .kNetSocket)).trans
  apply (if_neg (h .kPipe)).trans
  apply (if_neg (h .kSharedMemory)).trans
  exact if_neg (h .kUnixSocket)

end Convert

def separator : StringView := Text.bytes "://"

/-- What every option for a connection does with its value: the type, then the id. -/
def parseConnection {σ : Type} (setType : ConnectionType → σ → σ) (setId : StringView → σ → σ)
    (value : StringView) : Action σ Unit :=
  match Text.find separator value with
  | none => throw (.exception "Cannot parse connection type from argument")
  | some typeN => do
    let type ← convert (value.take typeN)
    modify (setType type)
    modify (setId (value.drop (typeN + 3)))

/-- The string names a connection type and an id, which may hold further separators. -/
def IsConnectionString (value : StringView) : Prop :=
  ∃ (type : ConnectionType) (id : StringView), value = type.toString ++ separator ++ id

/-- The string is the name of a connection type. -/
def IsConnectionType (value : StringView) : Prop := ∃ type : ConnectionType, value = type.toString

theorem separator_not_in_type (type : ConnectionType) : 58 ∉ type.toString := by
  cases type <;> decide

theorem find_separator (type : ConnectionType) (id : StringView) :
    Text.find separator (type.toString ++ separator ++ id) = some type.toString.length :=
  Text.find_append 58 _ id (separator_not_in_type type)

section ParseConnection
variable {σ : Type} (setType : ConnectionType → σ → σ) (setId : StringView → σ → σ)

/-- A connection string is taken apart into exactly its type and its id. -/
theorem parseConnection_run (type : ConnectionType) (id : StringView) (s : σ) :
    (parseConnection setType setId (type.toString ++ separator ++ id)).run s =
      .ok () (setId id (setType type s)) := by
  have htake : (type.toString ++ separator ++ id).take type.toString.length = type.toString := by
    rw [List.append_assoc]
    exact List.take_left
  have hdrop : (type.toString ++ separator ++ id).drop (type.toString.length + 3) = id := by
    exact List.drop_left' List.length_append
  unfold parseConnection
  rw [find_separator]
  simp only [htake, hdrop, convert_toString, pure_bind]
  rw [run_modify_bind]
  rfl

/-- Any other string is rejected, and nothing has been written then. -/
theorem parseConnection_throws {value : StringView} (h : ¬ IsConnectionString value) (s : σ) :
    ∃ what, (parseConnection setType setId value).run s = .error (.exception what) s := by
  unfold parseConnection
  split
  · exact ⟨_, rfl⟩
  · rename_i typeN hfind
    have hother : ∀ type : ConnectionType, value.take typeN ≠ type.toString := by
      intro type htype
      refine h ⟨type, value.drop (typeN + separator.length), ?_⟩
      rw [← htype]
      exact Text.find_split hfind
    rw [convert_other hother, run_throw_bind]
    exact ⟨_, rfl⟩

end ParseConnection
end IpcChecker
