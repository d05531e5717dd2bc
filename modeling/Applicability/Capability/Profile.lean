import Applicability.KeyMap

namespace Applicability

abbrev Profile := KeyMap Bool

namespace Profile

def supports (profile : Profile) (id : String) : Bool :=
  (profile.get? id).getD false

end Profile

end Applicability
