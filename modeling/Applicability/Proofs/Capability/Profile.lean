import Applicability.Capability.Item
import Applicability.Proofs.Capability.Id
import Applicability.Proofs.KeyMap

namespace Applicability.Capability

def declares (items : List Item) (id : Id) : Bool :=
  match items.reverse.find? fun item => Text.trim item.id.toList = id.text with
  | some item => item.declared.supported
  | none => false

theorem get?_profile (items : List Item) (id : Id) :
    (profile items).get? (String.ofList id.text) =
      (items.reverse.find? fun item => Text.trim item.id.toList = id.text).map (·.declared.supported) := by
  rw [profile, KeyMap.get?_ofList, ← List.filterMap_reverse, List.find?_filterMap]
  induction items.reverse with
  | nil => rfl
  | cons item items ih =>
    by_cases hid : Text.trim item.id.toList = id.text
    · simp [hid, id.valid]
    · have hne : String.ofList (Text.trim item.id.toList) ≠ String.ofList id.text :=
        fun h => hid (String.ofList_injective h)
      by_cases hv : isId (Text.trim item.id.toList) = true
      · simpa [hid, hv, hne] using ih
      · simpa [hid, hv] using ih

theorem supports_profile (items : List Item) (id : Id) :
    (profile items).supports (String.ofList id.text) = declares items id := by
  rw [Profile.supports, get?_profile, declares]
  cases items.reverse.find? fun item => Text.trim item.id.toList = id.text <;> rfl

end Applicability.Capability
