/-! Qualified names with a meaning of their own: the annotations that steer the generator, those of
the web framework, and the library types at the root of the type hierarchy. -/
namespace ClientBindings.Marker

/-- On a controller; attributes `name` and `module_name`. -/
def endpoint := "tsgen.Endpoint"
/-- On a member that is left out. -/
def ignore := "tsgen.Ignore"
/-- Another name for a type, member or method, in `value`. -/
def displayName := "tsgen.Name"

def requestMapping := "org.springframework.web.bind.annotation.RequestMapping"
def getMapping := "org.springframework.web.bind.annotation.GetMapping"
def postMapping := "org.springframework.web.bind.annotation.PostMapping"
def putMapping := "org.springframework.web.bind.annotation.PutMapping"
def deleteMapping := "org.springframework.web.bind.annotation.DeleteMapping"
def patchMapping := "org.springframework.web.bind.annotation.PatchMapping"

def requestParam := "org.springframework.web.bind.annotation.RequestParam"
def pathVariable := "org.springframework.web.bind.annotation.PathVariable"
def requestBody := "org.springframework.web.bind.annotation.RequestBody"

def lombokData := "lombok.Data"
def lombokValue := "lombok.Value"
def lombokGetter := "lombok.Getter"

def notNull := "jakarta.validation.constraints.NotNull"
def notEmpty := "jakarta.validation.constraints.NotEmpty"

/-- Annotations in this namespace are not looked into. -/
def metaNamespace := "java.lang.annotation."

def object := "java.lang.Object"
def collection := "java.util.Collection"
def map := "java.util.Map"

end ClientBindings.Marker
