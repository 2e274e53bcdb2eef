import Parley.Config
import Parley.Json.Write
import Parley.Naming.Markup

/-!
# Questions

What a backend is asked. In a conversation it is told its job, shown one worked
example and given the chunk; a machine is given the chunk alone and the locale
beside it.
-/

namespace Parley
namespace Backend

/-!
# Wording
-/

def preamble : String :=
  "You are an asistant of a Minecraft mod developer. You are asked to translate the mod " ++
    "description into different languages by locale code."

def markdownRules : String :=
  "I'm going to give you markdown text. You should give me translated markdown text. Do " ++
    "not wrap extra markdown code block (```) to the output, and do not add locale prefix " ++
    "to output."

def htmlRules : String :=
  "I'm going to give you html text. You should give me translated html text. Do not add " ++
    "locale prefix to output."

def plainRules : String :=
  "Please do not add locale prefix to output."

def domain : String :=
  "The content is about Minecraft Mod/ResourcePack/Modpack/ShaderPack or other " ++
    "Minecraft related resources. Please keep the language style delightful for gamers."

def rules : Markup → String
  | .markdown => markdownRules
  | .html => htmlRules
  | .plain => plainRules

def systemPrompt (markup : Markup) : String :=
  preamble ++ " " ++ rules markup

def instruction (locale text : String) : String :=
  "Translate following text into " ++ locale ++ ":\n" ++ text

/-!
# Messages
-/

inductive Role where
  | system
  | user
  | assistant
  deriving DecidableEq, Repr

def Role.name : Role → String
  | .system => "system"
  | .user => "user"
  | .assistant => "assistant"

structure Message where
  role : Role
  content : String
  deriving DecidableEq, Repr

structure Question where
  model : String
  messages : List Message
  /-- The locale, where it is not part of a message. -/
  target : Option String
  deriving DecidableEq, Repr

namespace Question

def ofChunk (mode : Config.Mode) (model chunk locale : String) (markup : Markup) : Question :=
  match mode with
  | .chat =>
    ⟨model,
      [⟨.system, systemPrompt markup⟩, ⟨.user, instruction "zh-CN" "Hello World"⟩,
        ⟨.assistant, "你好世界"⟩, ⟨.user, instruction locale chunk⟩],
      none⟩
  | .machine => ⟨model, [⟨.user, chunk⟩], some locale⟩

open Json

def messageJson (m : Message) : Value :=
  .object [("role", .string m.role.name), ("content", .string m.content)]

def optionsJson (locale : String) : Value :=
  .object [("source_lang", .string "auto"), ("target_lang", .string locale),
    ("domains", .string domain)]

def toJson (q : Question) : Value :=
  let options := match q.target with
    | some locale => [("translation_options", optionsJson locale)]
    | none => []
  .object (("model", .string q.model) :: ("messages", .array (q.messages.map messageJson)) ::
    options)

def write (q : Question) : String :=
  q.toJson.write

end Question
end Backend
end Parley
