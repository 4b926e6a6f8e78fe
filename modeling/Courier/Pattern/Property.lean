import Courier.Pattern.Syntax

/-!
# Properties of characters

Patterns may ask for a property by name. Only the digits of a status are ever looked at, so of a
property it is enough to know whether the ten ASCII digits have it; no property has some of them
only. Names are compared without case, blanks, hyphens and underscores.
-/

namespace Courier.Pattern

def words (text : String) : List String :=
  let rec go (current : List Char) : List Char → List String
    | [] => [String.ofList current.reverse]
    | c :: rest =>
      if c = ' ' then String.ofList current.reverse :: go [] rest else go (c :: current) rest
  go [] text.toList

def digitCategories : List String :=
  words "n number nd decimalnumber digit any assigned ascii"

def otherCategories : List String :=
  words ("c casedletter cc cf closepunctuation cn cntrl co combiningmark connectorpunctuation " ++
    "control currencysymbol dashpunctuation enclosingmark finalpunctuation format " ++
    "initialpunctuation l lc letter letternumber lineseparator ll lm lo lowercaseletter lt lu " ++
    "m mark mathsymbol mc me mn modifierletter modifiersymbol nl no nonspacingmark " ++
    "openpunctuation other otherletter othernumber otherpunctuation othersymbol p " ++
    "paragraphseparator pc pd pe pf pi po privateuse ps punct punctuation s sc separator sk " ++
    "sm so spaceseparator spacingmark symbol titlecaseletter unassigned uppercaseletter z zl " ++
    "zp zs")

def digitFlags : List String :=
  words ("ahex asciihexdigit hex hexdigit grbase graphemebase idc idcontinue xidc xidcontinue " ++
    "emoji ecomp emojicomponent")

def otherFlags : List String :=
  words ("alpha alphabetic bidic bidicontrol bidim bidimirrored cased caseignorable " ++
    "changeswhencasefolded changeswhencasemapped changeswhenlowercased changeswhentitlecased " ++
    "changeswhenuppercased ci cwcf cwcm cwl cwt cwu dash defaultignorablecodepoint dep " ++
    "deprecated di dia diacritic ebase emod emojimodifier emojimodifierbase emojipresentation " ++
    "epres ext extendedpictographic extender extpict graphemeextend graphemelink grext grlink " ++
    "hyphen idcompatmathcontinue idcompatmathstart ideo ideographic ids idsb " ++
    "idsbinaryoperator idst idstart idstrinaryoperator idsu idsunaryoperator joinc " ++
    "joincontrol loe logicalorderexception lower lowercase math nchar noncharactercodepoint " ++
    "oalpha odi ogrext oidc oids olower omath otheralphabetic otherdefaultignorablecodepoint " ++
    "othergraphemeextend otheridcontinue otheridstart otherlowercase othermath otheruppercase " ++
    "oupper patsyn patternsyntax patternwhitespace patws pcm prependedconcatenationmark qmark " ++
    "quotationmark radical regionalindicator ri sd sentenceterminal softdotted space sterm " ++
    "term terminalpunctuation uideo unifiedideograph upper uppercase variationselector vs " ++
    "whitespace wspace xids xidstart")

def digitScripts : List String :=
  words "common zyyy"

def otherScripts : List String :=
  words ("adlam adlm aghb ahom anatolianhieroglyphs arab arabic armenian armi armn avestan avst " ++
    "bali balinese bamu bamum bass bassavah batak batk beng bengali bhaiksuki bhks bopo " ++
    "bopomofo brah brahmi brai braille bugi buginese buhd buhid cakm canadianaboriginal cans " ++
    "cari carian caucasianalbanian chakma cham cher cherokee chorasmian chrs copt coptic cpmn " ++
    "cprt cuneiform cypriot cyprominoan cyrillic cyrl deseret deva devanagari diak divesakuru " ++
    "dogr dogra dsrt dupl duployan egyp egyptianhieroglyphs elba elbasan elym elymaic ethi " ++
    "ethiopic gara garay geor georgian glag glagolitic gong gonm goth gothic gran grantha " ++
    "greek grek gujarati gujr gukh gunjalagondi gurmukhi guru gurungkhema han hang hangul " ++
    "hani hanifirohingya hano hanunoo hatr hatran hebr hebrew hira hiragana hluw hmng hmnp " ++
    "hung imperialaramaic inherited inscriptionalpahlavi inscriptionalparthian ital java " ++
    "javanese kaithi kali kana kannada katakana kawi kayahli khar kharoshthi " ++
    "khitansmallscript khmer khmr khoj khojki khudawadi kiratrai kits knda krai kthi lana lao " ++
    "laoo latin latn lepc lepcha limb limbu lina linb lineara linearb lisu lyci lycian lydi " ++
    "lydian mahajani mahj maka makasar malayalam mand mandaic mani manichaean marc marchen " ++
    "masaramgondi medefaidrin medf meeteimayek mend mendekikakui merc mero meroiticcursive " ++
    "meroitichieroglyphs miao mlym modi mong mongolian mro mroo mtei mult multani myanmar " ++
    "mymr nabataean nagm nagmundari nand nandinagari narb nbat newa newtailue nko nkoo nshu " ++
    "nushu nyiakengpuachuehmong ogam ogham olchiki olck oldhungarian olditalic " ++
    "oldnortharabian oldpermic oldpersian oldsogdian oldsoutharabian oldturkic olduyghur " ++
    "olonal onao oriya orkh orya osage osge osma osmanya ougr pahawhhmong palm palmyrene pauc " ++
    "paucinhau perm phag phagspa phli phlp phnx phoenician plrd prti psalterpahlavi qaac qaai " ++
    "rejang rjng rohg runic runr samaritan samr sarb saur saurashtra sgnw sharada shavian " ++
    "shaw shrd sidd siddham signwriting sind sinh sinhala sogd sogdian sogo sora sorasompeng " ++
    "soyo soyombo sund sundanese sunu sunuwar sylo sylotinagri syrc syriac tagalog tagb " ++
    "tagbanwa taile taitham taiviet takr takri tale talu tamil taml tang tangsa tangut tavt " ++
    "telu telugu tfng tglg thaa thaana thai tibetan tibt tifinagh tirh tirhuta tnsa todhri " ++
    "todr toto tulutigalari tutg ugar ugaritic vai vaii vith vithkuqi wancho wara warangciti " ++
    "wcho xpeo xsux yezi yezidi yi yiii zanabazarsquare zanb zinh")

def ages : List String :=
  words ("1.1 10.0 11.0 12.0 12.1 13.0 14.0 15.0 2.0 2.1 3.0 3.1 3.2 4.0 4.1 5.0 5.1 5.2 6.0 6.1 " ++
    "6.2 6.3 7.0 8.0 9.0 v100 v11 v110 v120 v121 v130 v140 v150 v20 v21 v30 v31 v32 v40 v41 " ++
    "v50 v51 v52 v60 v61 v62 v63 v70 v80 v90 15.1 v151 16.0 v160")

def otherWordBreaks : List String :=
  words ("aletter le cr doublequote dq extend extendnumlet ex format fo hebrewletter hl katakana " ++
    "ka lf midletter ml midnum mn midnumlet mb newline nl regionalindicator ri singlequote sq " ++
    "wsegspace zwj")

def otherSentenceBreaks : List String :=
  words ("aterm at cr close cl extend ex format fo lf lower lo oletter le scontinue sc sterm st " ++
    "sep se sp upper up")

/-- Grapheme cluster breaks, none of which the digits have. -/
def graphemeBreaks : List String :=
  words ("cr control cn extend ex l lf lv lvt prepend pp regionalindicator ri spacingmark sm t v " ++
    "zwj")

/-- Names without letter case, separators, what is not ASCII and the word `is` before them. -/
def propertyKey (name : List Char) : String :=
  let kept := (name.filter fun c => c ≠ ' ' ∧ c ≠ '_' ∧ c ≠ '-' ∧ c.toNat < 128).map Char.toLower
  if (name.take 2).map Char.toLower = ['i', 's'] then
    let rest := kept.drop 2
    String.ofList (if rest = ['c'] then ['i', 's', 'c'] else rest)
  else String.ofList kept

def among (key : String) (withDigits without : List String) : Option Bool :=
  if withDigits.contains key then some true
  else if without.contains key then some false
  else none

def category? (key : String) : Option Bool :=
  among key digitCategories otherCategories

def script? (key : String) : Option Bool :=
  among key digitScripts otherScripts

/-- Whether the digits have a property; `none` if there is no such property. -/
def hasProperty? (name : List Char) (value : Option (List Char)) : Option Bool :=
  let key := propertyKey name
  match value with
  | none =>
    let asFlag := if ["cf", "sc", "lc"].contains key then none else among key digitFlags otherFlags
    asFlag <|> category? key <|> script? key
  | some value =>
    let value := propertyKey value
    match key with
    | "gc" | "generalcategory" | "category" => category? value
    | "sc" | "script" | "scx" | "scriptextensions" => script? value
    | "age" => among value ages []
    | "wb" | "wordbreak" => among value ["numeric", "nu"] otherWordBreaks
    | "sb" | "sentencebreak" => among value ["numeric", "nu"] otherSentenceBreaks
    | "gcb" | "graphemeclusterbreak" => among value [] graphemeBreaks
    | _ => none

end Courier.Pattern
