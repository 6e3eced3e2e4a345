/-!
# The validity check

A script that is written into every compiled tree and that its pages run before anything else: it
asks whether the published page is still valid, and starts the application or shows why not.
-/
namespace PageBuild

/-- The lines of the script. -/
def validCheckLines : List String :=
  [ "// Pre-boot validity check.",
    "//",
    "// Served next to the bundle. Before the application module is imported, the",
    "// page asks the landing-page service whether this published page is still",
    "// valid and shows an error page when it is not.",
    ";(function () \x7b",
    "  var VALIDATE_PATH = '/api/landing/valid'",
    "  var APP_CONTAINER_ID = 'app'",
    "  var LOADER_ID = 'loom-page-check-loader'",
    "",
    "  // /ls/<id>/<env>/latest/index.html, or /ls/<id>/latest/index.html for pro",
    "  function pageInfo() \x7b",
    "    try \x7b",
    "      var segments = (location.pathname || '').split('/').filter(Boolean)",
    "      var id = segments[1] || ''",
    "      var published = id.indexOf('publish_') === 0",
    "      return \x7b guid: published ? id.slice('publish_'.length) : id, preview: !published \x7d",
    "    \x7d catch (e) \x7b",
    "      return \x7b guid: '', preview: true \x7d",
    "    \x7d",
    "  \x7d",
    "",
    "  function showLoader() \x7b",
    "    var loader = document.createElement('div')",
    "    loader.id = LOADER_ID",
    "    loader.style.cssText =",
    "      'position:fixed;inset:0;display:flex;align-items:center;justify-content:center;' +",
    "      'background:#fff;color:#666;font:14px sans-serif;z-index:9999;'",
    "    loader.textContent = 'Checking page...'",
    "    document.body.appendChild(loader)",
    "  \x7d",
    "",
    "  function hideLoader() \x7b",
    "    var loader = document.getElementById(LOADER_ID)",
    "    if (loader && loader.parentNode) loader.parentNode.removeChild(loader)",
    "  \x7d",
    "",
    "  function showInvalid(message) \x7b",
    "    var app = document.getElementById(APP_CONTAINER_ID)",
    "    if (app) app.innerHTML = ''",
    "    var box = document.createElement('div')",
    "    box.style.cssText =",
    "      'min-height:100vh;display:flex;align-items:center;justify-content:center;' +",
    "      'background:#f7f8fa;color:#303133;font:16px sans-serif;padding:24px;text-align:center;'",
    "    box.textContent = message || 'This page is no longer available.'",
    "    document.body.innerHTML = ''",
    "    document.body.appendChild(box)",
    "  \x7d",
    "",
    "  function boot() \x7b",
    "    import('./main.js')",
    "  \x7d",
    "",
    "  function validateAndBoot() \x7b",
    "    var info = pageInfo()",
    "    if (!info.guid) \x7b",
    "      showInvalid()",
    "      return",
    "    \x7d",
    "    showLoader()",
    "    fetch(VALIDATE_PATH, \x7b",
    "      method: 'POST',",
    "      headers: \x7b 'content-type': 'application/json' \x7d,",
    "      body: JSON.stringify(\x7b guid: info.guid, preview: info.preview \x7d)",
    "    \x7d)",
    "      .then(function (res) \x7b return res.json() \x7d)",
    "      .then(function (body) \x7b",
    "        hideLoader()",
    "        var data = (body && body.data) || \x7b\x7d",
    "        if (data.isValid) \x7b",
    "          boot()",
    "        \x7d else \x7b",
    "          showInvalid(data.invalidMsg)",
    "        \x7d",
    "      \x7d)",
    "      .catch(function () \x7b",
    "        hideLoader()",
    "        showInvalid('Page check failed, please retry later.')",
    "      \x7d)",
    "  \x7d",
    "",
    "  if (document.readyState === 'loading') \x7b",
    "    document.addEventListener('DOMContentLoaded', validateAndBoot)",
    "  \x7d else \x7b",
    "    validateAndBoot()",
    "  \x7d",
    "\x7d)()" ]

/-- The text of the script. -/
def validCheck : String := String.join (validCheckLines.map (· ++ "\n"))

end PageBuild
