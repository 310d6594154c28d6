/-!
What a check finds: errors and warnings, each at a path.
-/

namespace Retrace

/-- A message about the part of a value that a path leads to. -/
structure Finding where
  path : String
  message : String
  deriving DecidableEq, Repr

namespace Finding

def text (finding : Finding) : String := finding.path ++ ": " ++ finding.message

/-- The finding about a part of a larger value. -/
def inside (parent : String) (finding : Finding) : Finding :=
  { finding with path := parent ++ "." ++ finding.path }

end Finding

structure Findings where
  errors : List Finding
  warnings : List Finding
  deriving DecidableEq, Repr

namespace Findings

def empty : Findings := ⟨[], []⟩

def isValid (findings : Findings) : Bool := findings.errors.isEmpty

def merge (first second : Findings) : Findings :=
  ⟨first.errors ++ second.errors, first.warnings ++ second.warnings⟩

/-- The findings about a part of a larger value. -/
def inside (parent : String) (findings : Findings) : Findings :=
  ⟨findings.errors.map (.inside parent), findings.warnings.map (.inside parent)⟩

@[simp] theorem errors_merge (first second : Findings) :
    (first.merge second).errors = first.errors ++ second.errors := rfl

@[simp] theorem warnings_merge (first second : Findings) :
    (first.merge second).warnings = first.warnings ++ second.warnings := rfl

@[simp] theorem errors_inside (parent : String) (findings : Findings) :
    (findings.inside parent).errors = findings.errors.map (.inside parent) := rfl

@[simp] theorem warnings_inside (parent : String) (findings : Findings) :
    (findings.inside parent).warnings = findings.warnings.map (.inside parent) := rfl

theorem isValid_iff {findings : Findings} : findings.isValid = true ↔ findings.errors = [] := by
  simp [isValid]

end Findings
end Retrace
