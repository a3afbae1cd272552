/-!
# Errors

Every way in which a build can fail, one constructor for each cause. A cause belongs to a kind,
the kind has a stable code, and the wording of all causes stands in `Error.message`.
-/

namespace Collector

/-- What the operating system reports when a file cannot be used. -/
inductive FileFault where
  | notFound
  | notADirectory
  | isADirectory
  | notText
  deriving DecidableEq

/-- Why a module of exports cannot be read. -/
inductive ModuleFault where
  | syntaxError
  | noExports
  deriving DecidableEq

/-- The text that failed to parse during compression. -/
inductive CompressionStage where
  | input
  | bundle
  | prunedBundle
  deriving DecidableEq

/-- The kinds of errors. -/
inductive ErrorKind where
  | contextDefinition
  | contextUsage
  | conflictingContext
  | signature
  | signatureMismatch
  | multipleTransforms
  | unsupportedForm
  | helperType
  | exportType
  | connection
  | moduleSource
  | compression
  | template
  | file
  | json
  deriving DecidableEq

/-- The causes of a failed build. -/
inductive Error where
  | schemaNotObject
  | variableNotObject (name : String)
  | descriptionRequired (name : String)
  | defaultNotNeeded (name : String)
  | notABoolean (name found : String)
  | notStatic (name field : String)
  | undeclared (first : String) (others : List String) (label : String)
  | conflictingContext (name : String)
  | noParameterList
  | bothSubjects
  | neitherSubject
  | parameterMissing (function parameter : String)
  | signatureMismatch (handler : String)
  | multipleTransforms
  | invalidName (name : String)
  | asyncOrGenerator (name : String)
  | asyncArrow (name : String)
  | notAFunctionForm (name : String)
  | usageSyntax
  | noClosingBrace
  | helperNotFunction (name : String)
  | transformNotFunction (name : String)
  | handlersNotFunctions
  | urlNotString
  | toUrlNotFunction
  | headersNotObject
  | endpointTwice
  | endpointMissing
  | moduleFault (path : Option String) (fault : ModuleFault)
  | compressionSyntax (stage : CompressionStage)
  | notOneDeclaration
  | restParameter
  | patternParameter (function : String)
  | outputSyntax
  | outputNotOneFunction
  | functionLost (name : String)
  | documentNotObject
  | fileNotObject (path : String)
  | sectionNotObject (name : String)
  | unnamed (directory : String)
  | file (fault : FileFault)
  | json
  deriving DecidableEq

/-- What a fallible step answers. -/
abbrev Outcome (α : Type) := Except Error α

namespace FileFault

/-- The text of the operating system. -/
def message : FileFault → String
  | notFound => "No such file or directory (os error 2)"
  | notADirectory => "Not a directory (os error 20)"
  | isADirectory => "Is a directory (os error 21)"
  | notText => "stream did not contain valid UTF-8"

end FileFault

namespace ErrorKind

/-- The stable code of a kind. -/
def code : ErrorKind → String
  | contextDefinition => "SGT-ERR-CTX-DEF"
  | contextUsage => "SGT-ERR-CTX-USAGE"
  | conflictingContext => "SGT-ERR-CTX-CONFLICT"
  | signature => "SGT-ERR-SIGNATURE"
  | signatureMismatch => "SGT-ERR-SIGNATURE-MISMATCH"
  | multipleTransforms => "SGT-ERR-MULTIPLE-TRANSFORMS"
  | unsupportedForm => "SGT-ERR-FORM"
  | helperType => "SGT-ERR-HELPER-TYPE"
  | exportType => "SGT-ERR-EXPORT-TYPE"
  | connection => "SGT-ERR-CONNECTION"
  | moduleSource => "SGT-ERR-MODULE"
  | compression => "SGT-ERR-COMPRESS"
  | template => "SGT-ERR-TEMPLATE"
  | file => "SGT-ERR-IO"
  | json => "SGT-ERR-JSON"

end ErrorKind

namespace Error

/-- The kind of a cause. -/
def kind : Error → ErrorKind
  | schemaNotObject | variableNotObject _ | descriptionRequired _ | defaultNotNeeded _
  | notABoolean _ _ | notStatic _ _ => .contextDefinition
  | undeclared _ _ _ => .contextUsage
  | conflictingContext _ => .conflictingContext
  | noParameterList | bothSubjects | neitherSubject | parameterMissing _ _ => .signature
  | signatureMismatch _ => .signatureMismatch
  | multipleTransforms => .multipleTransforms
  | invalidName _ | asyncOrGenerator _ | asyncArrow _ | notAFunctionForm _ | usageSyntax
  | noClosingBrace => .unsupportedForm
  | helperNotFunction _ => .helperType
  | transformNotFunction _ | handlersNotFunctions | urlNotString | toUrlNotFunction
  | headersNotObject => .exportType
  | endpointTwice | endpointMissing => .connection
  | moduleFault _ _ => .moduleSource
  | compressionSyntax _ | notOneDeclaration | restParameter | patternParameter _ | outputSyntax
  | outputNotOneFunction | functionLost _ => .compression
  | documentNotObject | fileNotObject _ | sectionNotObject _ | unnamed _ => .template
  | file _ => .file
  | json => .json

/-- The stable code of a cause. -/
def code (error : Error) : String := error.kind.code

/-- Stands for the report of a syntax error, which is not spelled out. -/
def report : String := "<diagnostics>"

/-- A text in double quotes. -/
def quoted (text : String) : String := "\"" ++ text ++ "\""

/-- The wording of a faulty field of a context definition. -/
def ofVariable (name text : String) : String := "contextDefinition." ++ name ++ ": " ++ text

/-- The wording of a faulty parameter list. -/
def ofSignature (text : String) : String := "Invalid function signature: " ++ text

/-- The wording of a failed compression. -/
def ofCompression (text : String) : String := "compression failed: " ++ text

/-- The wording of a faulty module. -/
def ofModule : ModuleFault → String
  | .syntaxError => "syntax error: " ++ report
  | .noExports => "no \x60module.exports = \x7b ... \x7d\x60 assignment found"

/-- The wording of a cause. -/
def message : Error → String
  | schemaNotObject => "contextDefinition must be an object"
  | variableNotObject name => ofVariable name "value must be an object"
  | descriptionRequired name => ofVariable name "description required"
  | defaultNotNeeded name => ofVariable name "default not needed if required is true"
  | notABoolean name found => ofVariable name ("invalid type: " ++ found ++ ", expected a boolean")
  | notStatic name field => ofVariable name (quoted field ++ " must be a static value")
  | undeclared first [] label =>
    "context variable " ++ quoted first ++ " used in " ++ label ++
      " is not defined in contextDefinition"
  | undeclared first others label =>
    "context variables [" ++ ",".intercalate (first :: others) ++ "] used in " ++ label ++
      " are not defined in contextDefinition"
  | conflictingContext name =>
    ofVariable name "conflicting definitions in transform.js and connection.js"
  | noParameterList => ofSignature "no parameter list found"
  | bothSubjects => ofSignature "only one of \"subject\" or \"subjects\" may be a param"
  | neitherSubject => ofSignature "must have a \"subject\" or \"subjects\" param"
  | parameterMissing function parameter =>
    ofSignature (quoted function ++ " must have " ++ quoted parameter ++ " param.")
  | signatureMismatch handler =>
    ofSignature (quoted handler ++
      " must have the same arguments as the corresponding \"transformXXXXXX\" function.")
  | multipleTransforms =>
    "Only one transform function can be defined. Comment out the other one."
  | invalidName name => quoted name ++ " is not a valid function name"
  | asyncOrGenerator name => quoted name ++ " must not be async or a generator"
  | asyncArrow name => quoted name ++ " must not be async"
  | notAFunctionForm name =>
    quoted name ++ " is not a method, function expression or arrow function"
  | usageSyntax => "could not parse function for context analysis: " ++ report
  | noClosingBrace => "function has no closing brace"
  | helperNotFunction _ => "helpers must be functions"
  | transformNotFunction name => name ++ " must be a function"
  | handlersNotFunctions => "errorHandlers must be functions"
  | urlNotString => "\"url\" must be a string."
  | toUrlNotFunction => "\"toUrl\" must be a function."
  | headersNotObject => "\"headers\" must be an object."
  | endpointTwice => "\"url\" and \"toUrl\" cannot both be defined. Remove one."
  | endpointMissing => "You must define either \"url\" or \"toUrl\"."
  | moduleFault none fault => ofModule fault
  | moduleFault (some path) fault => path ++ ": " ++ ofModule fault
  | compressionSyntax .input => ofCompression ("could not parse input: " ++ report)
  | compressionSyntax .bundle => ofCompression ("could not parse bundle: " ++ report)
  | compressionSyntax .prunedBundle =>
    ofCompression ("could not parse pruned bundle: " ++ report)
  | notOneDeclaration => ofCompression "input must be exactly one function declaration"
  | restParameter => ofCompression "rest parameters cannot be bound"
  | patternParameter function =>
    ofCompression ("parameters of " ++ quoted function ++ " must be plain names")
  | outputSyntax => ofCompression ("output is not valid JavaScript: " ++ report)
  | outputNotOneFunction => ofCompression "expected exactly one function declaration"
  | functionLost name =>
    ofCompression ("function " ++ quoted name ++ " did not survive minification")
  | documentNotObject => "template must be a JSON object"
  | fileNotObject path => path ++ " must contain a JSON object"
  | sectionNotObject name => quoted name ++ " must be an object"
  | unnamed directory => "cannot name a template after " ++ directory
  | file fault => fault.message
  | json => "malformed JSON"

end Error

end Collector
