import TemplateMessages.Plural.Locale
import TemplateMessages.Plural.Rules

set_option autoImplicit false

/-!
# Plural rules of the languages

The rules of each language, and which of them a locale uses. A locale in a script that is not its
language's own has no rules of its own.
-/

namespace TemplateMessages.Plural

/-- Cardinal rules with the languages that have them. All other languages have one category. The
numbers here are never in compact form, so conditions on a compact exponent are left out. -/
def languageRules : List (List String × Rules) := [
  (["am", "as", "bn", "doi", "fa", "gu", "hi", "kn", "kok", "kok-Latn", "pcm", "tg", "vi", "zu"],
    [(.one, [[.among .i 0 [(0, 0)]], [.among .n 0 [(1, 1)]]])]),
  (["hy"],
    [(.one, [[.among .i 0 [(0, 0), (1, 1)]]])]),
  (["ast", "de", "en", "et", "fi", "fy", "ia", "ie", "lij", "nl", "sc", "sv", "sw", "ur"],
    [(.one, [[.among .i 0 [(1, 1)], .among .v 0 [(0, 0)]]])]),
  (["si"],
    [(.one, [[.among .n 0 [(0, 0), (1, 1)]], [.among .i 0 [(0, 0)], .among .f 0 [(1, 1)]]])]),
  (["ak", "bho", "csw", "nso", "pa", "ti"],
    [(.one, [[.among .n 0 [(0, 1)]]])]),
  (["af", "az", "bg", "brx", "chr", "ee", "el", "eo", "eu", "fo", "ha", "hu", "ka", "kk", "ks",
    "ku", "ky", "lb", "ml", "mn", "mr", "nb", "ne", "nn", "no", "om", "or", "ps", "rm", "sd", "so",
    "sq", "st", "syr", "ta", "te", "tk", "tn", "tr", "ug", "uz", "xh"],
    [(.one, [[.among .n 0 [(1, 1)]]])]),
  (["da"],
    [(.one, [[.among .n 0 [(1, 1)]], [.notAmong .t 0 [(0, 0)], .among .i 0 [(0, 0), (1, 1)]]])]),
  (["is"],
    [(.one, [
        [.among .t 0 [(0, 0)], .among .i 10 [(1, 1)], .notAmong .i 100 [(11, 11)]],
        [.among .t 10 [(1, 1)], .notAmong .t 100 [(11, 11)]]])]),
  (["mk"],
    [(.one, [
        [.among .v 0 [(0, 0)], .among .i 10 [(1, 1)], .notAmong .i 100 [(11, 11)]],
        [.among .f 10 [(1, 1)], .notAmong .f 100 [(11, 11)]]])]),
  (["ceb", "fil"],
    [(.one, [
        [.among .v 0 [(0, 0)], .among .i 0 [(1, 1), (2, 2), (3, 3)]],
        [.among .v 0 [(0, 0)], .notAmong .i 10 [(4, 4), (6, 6), (9, 9)]],
        [.notAmong .v 0 [(0, 0)], .notAmong .f 10 [(4, 4), (6, 6), (9, 9)]]])]),
  (["lv", "prg"],
    [(.zero, [
        [.among .n 10 [(0, 0)]],
        [.among .n 100 [(11, 19)]],
        [.among .v 0 [(2, 2)], .among .f 100 [(11, 19)]]]),
      (.one, [
        [.among .n 10 [(1, 1)], .notAmong .n 100 [(11, 11)]],
        [.among .v 0 [(2, 2)], .among .f 10 [(1, 1)], .notAmong .f 100 [(11, 11)]],
        [.notAmong .v 0 [(2, 2)], .among .f 10 [(1, 1)]]])]),
  (["blo", "cv", "ksh"],
    [(.zero, [[.among .n 0 [(0, 0)]]]),
      (.one, [[.among .n 0 [(1, 1)]]])]),
  (["he"],
    [(.one, [
        [.among .i 0 [(1, 1)], .among .v 0 [(0, 0)]],
        [.among .i 0 [(0, 0)], .notAmong .v 0 [(0, 0)]]]),
      (.two, [[.among .i 0 [(2, 2)], .among .v 0 [(0, 0)]]])]),
  (["sat"],
    [(.one, [[.among .n 0 [(1, 1)]]]),
      (.two, [[.among .n 0 [(2, 2)]]])]),
  (["ro"],
    [(.one, [[.among .i 0 [(1, 1)], .among .v 0 [(0, 0)]]]),
      (.few, [
        [.notAmong .v 0 [(0, 0)]],
        [.among .n 0 [(0, 0)]],
        [.notAmong .n 0 [(1, 1)], .among .n 100 [(1, 19)]]])]),
  (["bs", "hr", "sr"],
    [(.one, [
        [.among .v 0 [(0, 0)], .among .i 10 [(1, 1)], .notAmong .i 100 [(11, 11)]],
        [.among .f 10 [(1, 1)], .notAmong .f 100 [(11, 11)]]]),
      (.few, [
        [.among .v 0 [(0, 0)], .among .i 10 [(2, 4)], .notAmong .i 100 [(12, 14)]],
        [.among .f 10 [(2, 4)], .notAmong .f 100 [(12, 14)]]])]),
  (["fr"],
    [(.one, [[.among .i 0 [(0, 0), (1, 1)]]]),
      (.many, [[.notAmong .i 0 [(0, 0)], .among .i 1000000 [(0, 0)], .among .v 0 [(0, 0)]]])]),
  (["pt"],
    [(.one, [[.among .i 0 [(0, 1)]]]),
      (.many, [[.notAmong .i 0 [(0, 0)], .among .i 1000000 [(0, 0)], .among .v 0 [(0, 0)]]])]),
  (["ca", "gl", "it", "pt-PT", "scn", "vec"],
    [(.one, [[.among .i 0 [(1, 1)], .among .v 0 [(0, 0)]]]),
      (.many, [[.notAmong .i 0 [(0, 0)], .among .i 1000000 [(0, 0)], .among .v 0 [(0, 0)]]])]),
  (["es"],
    [(.one, [[.among .n 0 [(1, 1)]]]),
      (.many, [[.notAmong .i 0 [(0, 0)], .among .i 1000000 [(0, 0)], .among .v 0 [(0, 0)]]])]),
  (["gd"],
    [(.one, [[.among .n 0 [(1, 1), (11, 11)]]]),
      (.two, [[.among .n 0 [(2, 2), (12, 12)]]]),
      (.few, [[.among .n 0 [(3, 10), (13, 19)]]])]),
  (["sl"],
    [(.one, [[.among .v 0 [(0, 0)], .among .i 100 [(1, 1)]]]),
      (.two, [[.among .v 0 [(0, 0)], .among .i 100 [(2, 2)]]]),
      (.few, [[.among .v 0 [(0, 0)], .among .i 100 [(3, 4)]], [.notAmong .v 0 [(0, 0)]]])]),
  (["dsb", "hsb"],
    [(.one, [[.among .v 0 [(0, 0)], .among .i 100 [(1, 1)]], [.among .f 100 [(1, 1)]]]),
      (.two, [[.among .v 0 [(0, 0)], .among .i 100 [(2, 2)]], [.among .f 100 [(2, 2)]]]),
      (.few, [[.among .v 0 [(0, 0)], .among .i 100 [(3, 4)]], [.among .f 100 [(3, 4)]]])]),
  (["cs", "sk"],
    [(.one, [[.among .i 0 [(1, 1)], .among .v 0 [(0, 0)]]]),
      (.few, [[.among .i 0 [(2, 4)], .among .v 0 [(0, 0)]]]),
      (.many, [[.notAmong .v 0 [(0, 0)]]])]),
  (["pl"],
    [(.one, [[.among .i 0 [(1, 1)], .among .v 0 [(0, 0)]]]),
      (.few, [[.among .v 0 [(0, 0)], .among .i 10 [(2, 4)], .notAmong .i 100 [(12, 14)]]]),
      (.many, [
        [.among .v 0 [(0, 0)], .notAmong .i 0 [(1, 1)], .among .i 10 [(0, 1)]],
        [.among .v 0 [(0, 0)], .among .i 10 [(5, 9)]],
        [.among .v 0 [(0, 0)], .among .i 100 [(12, 14)]]])]),
  (["be"],
    [(.one, [[.among .n 10 [(1, 1)], .notAmong .n 100 [(11, 11)]]]),
      (.few, [[.among .n 10 [(2, 4)], .notAmong .n 100 [(12, 14)]]]),
      (.many, [[.among .n 10 [(0, 0)]], [.among .n 10 [(5, 9)]], [.among .n 100 [(11, 14)]]])]),
  (["lt"],
    [(.one, [[.among .n 10 [(1, 1)], .notAmong .n 100 [(11, 19)]]]),
      (.few, [[.among .n 10 [(2, 9)], .notAmong .n 100 [(11, 19)]]]),
      (.many, [[.notAmong .f 0 [(0, 0)]]])]),
  (["ru", "uk"],
    [(.one, [[.among .v 0 [(0, 0)], .among .i 10 [(1, 1)], .notAmong .i 100 [(11, 11)]]]),
      (.few, [[.among .v 0 [(0, 0)], .among .i 10 [(2, 4)], .notAmong .i 100 [(12, 14)]]]),
      (.many, [
        [.among .v 0 [(0, 0)], .among .i 10 [(0, 0)]],
        [.among .v 0 [(0, 0)], .among .i 10 [(5, 9)]],
        [.among .v 0 [(0, 0)], .among .i 100 [(11, 14)]]])]),
  (["br"],
    [(.one, [[.among .n 10 [(1, 1)], .notAmong .n 100 [(11, 11), (71, 71), (91, 91)]]]),
      (.two, [[.among .n 10 [(2, 2)], .notAmong .n 100 [(12, 12), (72, 72), (92, 92)]]]),
      (.few, [[.among .n 10 [(3, 4), (9, 9)], .notAmong .n 100 [(10, 19), (70, 79), (90, 99)]]]),
      (.many, [[.notAmong .n 0 [(0, 0)], .among .n 1000000 [(0, 0)]]])]),
  (["mt"],
    [(.one, [[.among .n 0 [(1, 1)]]]),
      (.two, [[.among .n 0 [(2, 2)]]]),
      (.few, [[.among .n 0 [(0, 0)]], [.among .n 100 [(3, 10)]]]),
      (.many, [[.among .n 100 [(11, 19)]]])]),
  (["ga"],
    [(.one, [[.among .n 0 [(1, 1)]]]),
      (.two, [[.among .n 0 [(2, 2)]]]),
      (.few, [[.among .n 0 [(3, 6)]]]),
      (.many, [[.among .n 0 [(7, 10)]]])]),
  (["ar"],
    [(.zero, [[.among .n 0 [(0, 0)]]]),
      (.one, [[.among .n 0 [(1, 1)]]]),
      (.two, [[.among .n 0 [(2, 2)]]]),
      (.few, [[.among .n 100 [(3, 10)]]]),
      (.many, [[.among .n 100 [(11, 99)]]])]),
  (["cy"],
    [(.zero, [[.among .n 0 [(0, 0)]]]),
      (.one, [[.among .n 0 [(1, 1)]]]),
      (.two, [[.among .n 0 [(2, 2)]]]),
      (.few, [[.among .n 0 [(3, 3)]]]),
      (.many, [[.among .n 0 [(6, 6)]]])])
]

def languageScripts : List (String × List String) := [
  ("Ethi", ["am", "ti"]), ("Arab", ["ar", "fa", "ks", "ps", "sd", "ug", "ur"]),
  ("Beng", ["as", "bn"]),
  ("Cyrl", ["be", "bg", "cv", "kk", "ky", "mk", "mn", "ru", "sr", "tg", "uk"]),
  ("Deva", ["bho", "brx", "doi", "hi", "kok", "mr", "ne"]), ("Cher", ["chr"]), ("Cans", ["csw"]),
  ("Grek", ["el"]), ("Gujr", ["gu"]), ("Hebr", ["he"]), ("Armn", ["hy"]), ("Geor", ["ka"]),
  ("Knda", ["kn"]), ("Mlym", ["ml"]), ("Orya", ["or"]), ("Guru", ["pa"]), ("Olck", ["sat"]),
  ("Sinh", ["si"]), ("Syrc", ["syr"]), ("Taml", ["ta"]), ("Telu", ["te"])]

def regionScripts : List (String × String × List String) := [
  ("az", "Arab", ["IQ", "IR"]), ("az", "Cyrl", ["RU"]), ("ha", "Arab", ["CM", "SD"]),
  ("kk", "Arab", ["AF", "CN", "IR", "MN"]), ("ku", "Cyrl", ["AM", "AZ", "GE", "TM"]),
  ("ku", "Arab", ["IQ", "IR", "LB"]), ("ky", "Arab", ["CN"]), ("ky", "Latn", ["TR"]),
  ("mn", "Mong", ["CN"]), ("pa", "Arab", ["PK"]), ("sd", "Deva", ["IN"]),
  ("sr", "Latn", ["ME", "RO", "TR"]), ("tg", "Arab", ["PK"]), ("ug", "Cyrl", ["KZ", "MN"]),
  ("uz", "Arab", ["AF"]), ("uz", "Cyrl", ["CN"])]

def europeanPortuguese : List String := [
  "PT", "AO", "CH", "CV", "FR", "GQ", "GW", "LU", "MO", "MZ", "ST", "TL"]

namespace Locale

def languageScript? (language : String) : Option String :=
  if language = "nb" then none
  else some <|
    match languageScripts.find? (·.2.contains language) with
    | some (script, _) => script
    | none => "Latn"

def regionScript? (language region : String) : Option String :=
  match regionScripts.find? fun (l, _, regions) => l == language && regions.contains region with
  | some (_, script, _) => some script
  | none => none

/-- A script that is not the language's own: the one that is given or else the one of the region. -/
def foreignScript? (locale : Locale) : Option String :=
  match locale.script with
  | none => locale.region.bind (regionScript? locale.language)
  | some script => if languageScript? locale.language = some script then none else some script

def rulesName? (locale : Locale) : Option String :=
  match locale.foreignScript? with
  | some script =>
    if locale.language = "kok" ∧ script = "Latn" then some "kok-Latn"
    else if locale.language = "hi" ∧ script = "Latn" then some "en"
    else none
  | none =>
    if locale.language = "pt" ∧ locale.region.any europeanPortuguese.contains then some "pt-PT"
    else some locale.language

def rules (locale : Locale) : Rules :=
  match locale.rulesName? with
  | none => []
  | some name =>
    match languageRules.find? (·.1.contains name) with
    | some (_, rules) => rules
    | none => []

end Locale

def cardinalRules? (locale : String) : Option Rules :=
  (Locale.ofText? locale).map Locale.rules

end TemplateMessages.Plural
