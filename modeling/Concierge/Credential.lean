import Concierge.Settings.Provider
import Concierge.Text.Blank

/-!
# Credentials

An account may have a credential of its own; the installation's is used where it has none.  Blank
credentials count as missing.
-/

namespace Concierge

/-- The account's own credential, or else the installation's. -/
def credential? (own : Option String) (installation : Option Secret) : Option String :=
  (own.bind Text.unlessBlank?).or (installation.bind fun s => Text.unlessBlank? s.reveal)

/-- A text that has to be there. -/
def given? (s : Option String) : Option String := s.bind Text.nonBlank?

end Concierge
