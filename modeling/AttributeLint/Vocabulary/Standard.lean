import AttributeLint.Vocabulary.Build

/-!
# The standard vocabulary

The attributes of HTML, RDFa and SVG in the spelling of element properties, the event handlers with
their capture-phase forms, the properties of the component framework, and the states and properties
of WAI-ARIA 1.2. Spellings that differ by case or separators need no mention here; `class` and
`for`, whose properties have other names, are renames.
-/

namespace AttributeLint.Vocabulary

/-- WAI-ARIA states and properties: the global ones, then those of widgets and of relationships. -/
def ariaProperties : List String :=
  ["aria-atomic", "aria-braillelabel", "aria-brailleroledescription", "aria-busy",
   "aria-controls", "aria-current", "aria-describedby", "aria-description", "aria-details",
   "aria-disabled", "aria-dropeffect", "aria-errormessage", "aria-flowto", "aria-grabbed",
   "aria-haspopup", "aria-hidden", "aria-invalid", "aria-keyshortcuts", "aria-label",
   "aria-labelledby", "aria-live", "aria-owns", "aria-relevant", "aria-roledescription",
   "aria-autocomplete", "aria-checked", "aria-expanded", "aria-level", "aria-modal",
   "aria-multiline", "aria-multiselectable", "aria-orientation", "aria-placeholder",
   "aria-pressed", "aria-readonly", "aria-required", "aria-selected", "aria-sort",
   "aria-valuemax", "aria-valuemin", "aria-valuenow", "aria-valuetext", "aria-activedescendant",
   "aria-colcount", "aria-colindex", "aria-colindextext", "aria-colspan", "aria-posinset",
   "aria-rowcount", "aria-rowindex", "aria-rowindextext", "aria-rowspan", "aria-setsize"]

/-- HTML attributes: the global ones, those of single elements, and some that no standard has. -/
def htmlAttributes : List String :=
  ["accessKey", "autoCapitalize", "autoFocus", "className", "contentEditable", "contextMenu",
   "dir", "draggable", "enterKeyHint", "exportParts", "hidden", "id", "inert", "inputMode", "is",
   "itemID", "itemProp", "itemRef", "itemScope", "itemType", "lang", "nonce", "part", "role",
   "slot", "spellCheck", "style", "tabIndex", "title", "translate", "accept", "acceptCharset",
   "action", "allow", "allowFullScreen", "allowTransparency", "alt", "async", "autoComplete",
   "autoPlay", "border", "buffered", "capture", "cellPadding", "cellSpacing", "challenge",
   "charSet", "checked", "cite", "classID", "code", "codeBase", "cols", "colSpan", "content",
   "controls", "controlsList", "coords", "crossOrigin", "csp", "data", "dateTime", "decoding",
   "default", "defer", "disabled", "disablePictureInPicture", "disableRemotePlayback",
   "download", "encType", "fetchPriority", "form", "formAction", "formEncType", "formMethod",
   "formNoValidate", "formTarget", "frameBorder", "headers", "height", "high", "href",
   "hrefLang", "htmlFor", "httpEquiv", "icon", "imageSizes", "imageSrcSet", "importance",
   "integrity", "keyParams", "keyType", "kind", "label", "language", "list", "loading", "loop",
   "low", "manifest", "marginHeight", "marginWidth", "max", "maxLength", "media", "mediaGroup",
   "method", "min", "minLength", "multiple", "muted", "name", "noModule", "noValidate", "open",
   "optimum", "pattern", "ping", "placeholder", "playsInline", "poster", "preload", "profile",
   "radioGroup", "readOnly", "referrerPolicy", "rel", "required", "reversed", "rows", "rowSpan",
   "sandbox", "scope", "scoped", "scrolling", "seamless", "selected", "shape", "size", "sizes",
   "span", "src", "srcDoc", "srcLang", "srcSet", "start", "step", "summary", "target", "type",
   "useMap", "value", "width", "wmode", "wrap", "autoCorrect", "autoSave", "color", "results",
   "security", "unselectable"]

/-- RDFa attributes. -/
def rdfaAttributes : List String :=
  ["about", "datatype", "inlist", "prefix", "property", "resource", "typeof", "vocab"]

/-- SVG attributes. -/
def svgAttributes : List String :=
  ["accentHeight", "accumulate", "additive", "alignmentBaseline", "allowReorder", "alphabetic",
   "amplitude", "arabicForm", "ascent", "attributeName", "attributeType", "autoReverse",
   "azimuth", "baseFrequency", "baselineShift", "baseProfile", "bbox", "begin", "bias", "by",
   "calcMode", "capHeight", "clip", "clipPath", "clipPathUnits", "clipRule",
   "colorInterpolation", "colorInterpolationFilters", "colorProfile", "colorRendering",
   "contentScriptType", "contentStyleType", "cursor", "cx", "cy", "d", "decelerate", "descent",
   "diffuseConstant", "direction", "display", "divisor", "dominantBaseline", "dur", "dx", "dy",
   "edgeMode", "elevation", "enableBackground", "end", "exponent", "externalResourcesRequired",
   "fill", "fillOpacity", "fillRule", "filter", "filterRes", "filterUnits", "floodColor",
   "floodOpacity", "focusable", "fontFamily", "fontSize", "fontSizeAdjust", "fontStretch",
   "fontStyle", "fontVariant", "fontWeight", "format", "fr", "from", "fx", "fy", "g1", "g2",
   "glyphName", "glyphOrientationHorizontal", "glyphOrientationVertical", "glyphRef",
   "gradientTransform", "gradientUnits", "hanging", "horizAdvX", "horizOriginX", "ideographic",
   "imageRendering", "in", "in2", "intercept", "k", "k1", "k2", "k3", "k4", "kernelMatrix",
   "kernelUnitLength", "kerning", "keyPoints", "keySplines", "keyTimes", "lengthAdjust",
   "letterSpacing", "lightingColor", "limitingConeAngle", "local", "markerEnd", "markerHeight",
   "markerMid", "markerStart", "markerUnits", "markerWidth", "mask", "maskContentUnits",
   "maskUnits", "mathematical", "mode", "numOctaves", "offset", "opacity", "operator", "order",
   "orient", "orientation", "origin", "overflow", "overlinePosition", "overlineThickness",
   "paintOrder", "panose1", "path", "pathLength", "patternContentUnits", "patternTransform",
   "patternUnits", "pointerEvents", "points", "pointsAtX", "pointsAtY", "pointsAtZ",
   "preserveAlpha", "preserveAspectRatio", "primitiveUnits", "r", "radius", "refX", "refY",
   "renderingIntent", "repeatCount", "repeatDur", "requiredExtensions", "requiredFeatures",
   "restart", "result", "rotate", "rx", "ry", "scale", "seed", "shapeRendering", "slope",
   "spacing", "specularConstant", "specularExponent", "speed", "spreadMethod", "startOffset",
   "stdDeviation", "stemh", "stemv", "stitchTiles", "stopColor", "stopOpacity",
   "strikethroughPosition", "strikethroughThickness", "string", "stroke", "strokeDasharray",
   "strokeDashoffset", "strokeLinecap", "strokeLinejoin", "strokeMiterlimit", "strokeOpacity",
   "strokeWidth", "surfaceScale", "systemLanguage", "tableValues", "targetX", "targetY",
   "textAnchor", "textDecoration", "textLength", "textRendering", "to", "transform", "u1", "u2",
   "underlinePosition", "underlineThickness", "unicode", "unicodeBidi", "unicodeRange",
   "unitsPerEm", "vAlphabetic", "values", "vectorEffect", "version", "vertAdvY", "vertOriginX",
   "vertOriginY", "vHanging", "vIdeographic", "viewBox", "viewTarget", "visibility",
   "vMathematical", "widths", "wordSpacing", "writingMode", "x", "x1", "x2", "xChannelSelector",
   "xHeight", "xlinkActuate", "xlinkArcrole", "xlinkHref", "xlinkRole", "xlinkShow",
   "xlinkTitle", "xlinkType", "xmlBase", "xmlLang", "xmlns", "xmlnsXlink", "xmlSpace", "y", "y1",
   "y2", "yChannelSelector", "z", "zoomAndPan"]

/-- Event handlers of the bubbling phase. -/
def eventHandlers : List String :=
  ["onCopy", "onCut", "onPaste", "onCompositionEnd", "onCompositionStart", "onCompositionUpdate",
   "onKeyDown", "onKeyPress", "onKeyUp", "onFocus", "onBlur", "onBeforeInput", "onChange",
   "onInput", "onInvalid", "onReset", "onSubmit", "onError", "onLoad", "onClick",
   "onContextMenu", "onDoubleClick", "onDrag", "onDragEnd", "onDragEnter", "onDragExit",
   "onDragLeave", "onDragOver", "onDragStart", "onDrop", "onMouseDown", "onMouseEnter",
   "onMouseLeave", "onMouseMove", "onMouseOut", "onMouseOver", "onMouseUp", "onPointerDown",
   "onPointerMove", "onPointerUp", "onPointerCancel", "onGotPointerCapture",
   "onLostPointerCapture", "onPointerEnter", "onPointerLeave", "onPointerOver", "onPointerOut",
   "onSelect", "onTouchCancel", "onTouchEnd", "onTouchMove", "onTouchStart", "onScroll",
   "onWheel", "onAbort", "onCanPlay", "onCanPlayThrough", "onDurationChange", "onEmptied",
   "onEncrypted", "onEnded", "onLoadedData", "onLoadedMetadata", "onLoadStart", "onPause",
   "onPlay", "onPlaying", "onProgress", "onRateChange", "onSeeked", "onSeeking", "onStalled",
   "onSuspend", "onTimeUpdate", "onVolumeChange", "onWaiting", "onAnimationStart",
   "onAnimationEnd", "onAnimationIteration", "onTransitionEnd", "onToggle", "onCancel",
   "onClose"]

/-- Properties of the component framework. -/
def frameworkProperties : List String :=
  ["children", "dangerouslySetInnerHTML", "defaultChecked", "defaultValue", "key", "ref",
   "suppressContentEditableWarning", "suppressHydrationWarning"]

/-- Attributes that are valid on some tags only, with the tags in the order of messages. -/
def tagRestrictions : List (String × List String) :=
  [("crossOrigin", ["script", "img", "video", "audio", "link", "image"]),
   ("download", ["a", "area"]), ("poster", ["video"]), ("playsInline", ["video"]),
   ("noModule", ["script"]), ("imageSizes", ["link"]), ("imageSrcSet", ["link"]),
   ("allowFullScreen", ["iframe", "video"])]

/-- Spellings accepted beside the canonical one. -/
def acceptedAliases : List (String × List String) :=
  [("charSet", ["charset"]), ("hrefLang", ["hreflang"])]

/-- Spellings whose lookup key is not that of the attribute meant. -/
def standardRenames : List (String × String) :=
  [("class", "className"), ("for", "htmlFor")]

/-- The declarations of the standard vocabulary. Every handler also exists in its capture form. -/
def standardDeclarations : Declarations where
  groups :=
    [("html", htmlAttributes), ("rdfa", rdfaAttributes), ("svg", svgAttributes),
     ("event", eventHandlers ++ eventHandlers.map (· ++ "Capture")),
     ("react", frameworkProperties)]
  restrictions := tagRestrictions
  aliases := acceptedAliases
  renames := standardRenames
  aria := ariaProperties

/-- The standard vocabulary. Its declarations are accepted; the empty one only makes it total. -/
def standard : Vocabulary :=
  standardDeclarations.build.toOption.getD empty

end AttributeLint.Vocabulary
