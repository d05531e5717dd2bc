namespace Applicability

def version : String := "0.4.0"

end Applicability
